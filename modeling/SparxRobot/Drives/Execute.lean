import SparxRobot.Drives.Motion

/-! One iteration of the drives: the odometry, the drive state machine, motor power. -/
namespace SparxRobot.Drives

variable {R : Type*} [Field R] [LinearOrder R]

def setTankSpeed (right left : R) (isInverted : Bool) (s : DrivesState R) : DrivesState R :=
  if !isInverted then
    { s with rightWantedSpeed := -right * MAX_SPEED R, leftWantedSpeed := -left * MAX_SPEED R }
  else { s with rightWantedSpeed := left * MAX_SPEED R, leftWantedSpeed := right * MAX_SPEED R }

/-- The motor test, one motor pair after the other. -/
def diagnostics (r : DrivesReading R) (s : DrivesState R) : DrivesState R :=
  match s.currentDiagnosticState with
  | .done =>
      { s with rightMotorFront := 0, rightMotorBack := 0, leftMotorFront := 0, leftMotorBack := 0 }
  | .top => { s with diagnosticTime := r.setNow, currentDiagnosticState := .topWait }
  | .topWait =>
      if r.checkNow < s.diagnosticTime + 500 then s
      else { s with currentDiagnosticState := .front }
  | .front =>
      { s with
        rightMotorFront := CHECK_POWER R
        leftMotorFront := CHECK_POWER R
        diagnosticTime := r.setNow
        currentDiagnosticState := .frontWait }
  | .frontWait =>
      if r.checkNow < s.diagnosticTime + 500 then s
      else { s with rightMotorFront := 0, leftMotorFront := 0, currentDiagnosticState := .back }
  | .back =>
      { s with
        rightMotorBack := CHECK_POWER R
        leftMotorBack := CHECK_POWER R
        diagnosticTime := r.setNow
        currentDiagnosticState := .backWait }
  | .backWait =>
      if r.checkNow < s.diagnosticTime + 500 then s
      else { s with rightMotorBack := 0, leftMotorBack := 0, currentDiagnosticState := .done }

/-- The `TELEOP` case. -/
def teleop (r : DrivesReading R) (s : DrivesState R) : DrivesState R :=
  let invert := getButtonRising s.invertSeen r.invertAt
  let s := { s with
    invertSeen := invert.2
    isInverse := if invert.1 then !s.isInverse else s.isInverse }
  let s := if r.backPressed then diagnostics r { s with isDiagnostic := true }
    else { s with currentDiagnosticState := .top, isDiagnostic := false }
  setTankSpeed r.rightStick r.leftStick s.isInverse s

/-- The switch over the drive state. -/
def runState [FloorRing R] [JavaMath R] (r : DrivesReading R) (s : DrivesState R) :
    DrivesState R :=
  match s.currentDriveState with
  | .standby =>
      let s := { s with autoReady := true }
      if r.mode.isDisabled then { s with currentDriveState := .disabled }
      else if r.mode.isOperatorControl then { s with currentDriveState := .teleop }
      else s
  | .autoDriveDistance => driveDistance r s
  | .autoDrivePoint => drivePoint r s
  | .autoTurn => turn s
  | .autoHold => hold r s
  | .autoAbort => { abort s with currentDriveState := .standby }
  | .autoStop => (stopDrives s).1
  | .teleop => teleop r s
  | .disabled =>
      { s with rightWantedSpeed := 0, leftWantedSpeed := 0, currentDriveState := .standby }

/-- The motor's deadband, added to any power that is not zero. -/
def overDeadband (power : R) : R :=
  if power < 0 then power - 0.05 else if power > 0 then power + 0.05 else power

/-- Power for the motors, unless diagnostics has them; `brake` is the brake mode the
switch asked for on both sides. -/
def setPower (r : DrivesReading R) (brake : Bool) (s : DrivesState R) : DrivesState R :=
  if s.isDiagnostic then { s with rightBrakeMode := brake, leftBrakeMode := brake }
  else
    let s :=
      if r.mode.isOperatorControl then
        { s with
          rightSetPower := s.rightWantedSpeed / MAX_SPEED R
          leftSetPower := s.leftWantedSpeed / MAX_SPEED R
          rightBrakeMode := brake
          leftBrakeMode := brake }
      else
        let right := s.rightPID.loop r.rightNow s.rightCurrentSpeed s.rightWantedSpeed
        let left := s.leftPID.loop r.leftNow s.leftCurrentSpeed s.leftWantedSpeed
        { s with
          rightPID := right.1
          leftPID := left.1
          rightSetPower := right.2
          leftSetPower := left.2
          leftBrakeMode := decide (s.leftWantedSpeed = 0 ∧ left.2 = 0) || brake
          rightBrakeMode := decide (s.rightWantedSpeed = 0 ∧ right.2 = 0) || brake }
    let right := overDeadband s.rightSetPower
    let left := overDeadband s.leftSetPower
    { s with
      rightSetPower := right
      leftSetPower := left
      rightMotorFront := right
      rightMotorBack := right
      leftMotorFront := left
      leftMotorBack := left }

/-- The values the next iteration compares with. -/
def remember (s : DrivesState R) : DrivesState R :=
  { s with
    rightPreviousDistance := s.rightCurrentDistance
    leftPreviousDistance := s.leftCurrentDistance
    previousX := s.currentX
    previousY := s.currentY
    previousAngle := s.currentAngle }

def execute [FloorRing R] [JavaMath R] (r : DrivesReading R) (s : DrivesState R) :
    DrivesState R :=
  let sensed := sense r s
  let brake := decide (sensed.currentDriveState = .teleop)
  remember (setPower r brake (runState r sensed))

end SparxRobot.Drives
