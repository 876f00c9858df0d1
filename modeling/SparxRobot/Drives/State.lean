import SparxRobot.Drives.PID
import SparxRobot.Java.Math
import SparxRobot.Station.Mode
import SparxRobot.Station.Buttons

/-! The drives: what they keep between iterations and what one iteration reads. The navX
is taken as constructed, and what is only logged or shared with the camera is left out. -/
namespace SparxRobot.Drives

inductive DriveState where
  | standby | autoDriveDistance | autoDrivePoint | autoTurn | autoHold | autoAbort | autoStop
  | teleop | disabled
  deriving DecidableEq, Repr

inductive DiagnosticState where
  | done | top | topWait | front | frontWait | back | backWait
  deriving DecidableEq, Repr

section Constants

variable (R : Type*) [Field R]

def MAX_SPEED : R := 175
def HOLDING_DRIVE_SPEED : R := 30
def HOLDING_TURN_SPEED : R := 30
def CHECK_POWER : R := 0.3
def LIFT_TAPE_GEAR_DISTANCE : R := 20

end Constants

/-- The controller `init` builds for either side. -/
def wheelPID (R : Type*) [Field R] [LinearOrder R] : PID R :=
  (((PID.mk3 0.08 0.025 0.00538).breakMode true).setMaxMin (-0.95) 0.95).setSPRamp 200

/-- The fields of `Drives`, the press of the invert button its controls object has seen,
and what each motor was last set to. -/
structure DrivesState (R : Type*) [Field R] [LinearOrder R] where
  rightPID : PID R := wheelPID R
  rightCurrentSpeed : R := 0
  rightWantedSpeed : R := 0
  rightPreviousDistance : R := 0
  rightCurrentDistance : R := 0
  rightSetPower : R := 0
  rightBrakeMode : Bool := true
  leftPID : PID R := wheelPID R
  leftCurrentSpeed : R := 0
  leftWantedSpeed : R := 0
  leftPreviousDistance : R := 0
  leftCurrentDistance : R := 0
  leftSetPower : R := 0
  leftBrakeMode : Bool := true
  currentDriveState : DriveState := .standby
  currentX : R := 0
  currentY : R := 0
  previousX : R := 0
  previousY : R := 0
  currentAngle : R := 0
  isInverse : Bool := false
  wantedSpeed : R := 0
  wantedDistance : R := 0
  wantedAngle : R := 0
  angleOffset : R := 0
  turnDone : Bool := false
  driveDone : Bool := false
  averageSpeed : R := 0
  averageDistance : R := 0
  previousAngle : R := 0
  currentDiagnosticState : DiagnosticState := .done
  isDiagnostic : Bool := false
  diagnosticTime : ℤ := 0
  initialHeading : R := 0
  straightCorrection : R := 0
  distanceToGo : R := 0
  endX : R := 0
  endY : R := 0
  angleToEnd : R := 0
  calculatedDistance : R := 0
  offsetCorrection : R := 0
  distanceToPoint : R := 0
  autoReady : Bool := true
  navReady : Bool := false
  gyroZero : R := 0
  invertSeen : ℤ := 0
  rightMotorFront : R := 0
  rightMotorBack : R := 0
  leftMotorFront : R := 0
  leftMotorBack : R := 0

/-- What one iteration reads. The gyro is read for the heading, again by the motion in
progress for its correction, and once more when a hold starts a drive. -/
structure DrivesReading (R : Type*) [Field R] where
  mode : Mode := .autoEnabled
  connected : Bool := true
  angle : R := 0
  correctionAngle : R := 0
  commandAngle : R := 0
  rightSpeed : R := 0
  leftSpeed : R := 0
  rightDistance : R := 0
  leftDistance : R := 0
  invertAt : ℤ := 0
  backPressed : Bool := false
  rightStick : R := 0
  leftStick : R := 0
  rightNow : ℤ := 0
  leftNow : ℤ := 0
  checkNow : ℤ := 0
  setNow : ℤ := 0

end SparxRobot.Drives
