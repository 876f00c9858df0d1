import SparxRobot.Java.Double
import SparxRobot.Machine.Run
import SparxRobot.Station.Mode
import SparxRobot.Station.Buttons

/-! The shooter: its loop, the three commands the script calls, and its diagnostics.
Doubles are rationals here, rounded where the flywheel's speed is set and regulated, and the
clocks, sensors, joysticks and the camera's shared values are inputs. Dashboard and log
output is left out. -/
namespace SparxRobot.Shooter
open Machine

def SPEED_ALLOWED_OFF : ℚ := 15
def FLYWHEEL_MAX : ℚ := 1
def INITIAL_SPEED : ℚ := 1400
def FLYWHEEL_DECAY : ℚ := 0.25
def INTAKE_BALL_SPEED : ℚ := 1
def FLYWHEEL_DEADBAND : ℚ := 100

inductive Diagnostics where
  | done | flywheel | flywheelWait | turretWait1 | turretWait2
  deriving DecidableEq, Repr

/-- The fields of `Shooter`, the presses its controls object has seen, and what the
flywheel, feeder, turret and shroud were last commanded to. -/
structure ShooterState where
  shootingSpeedCurrent : ℚ := 0
  shootingSpeed : ℚ := 0
  shroudOutput : ℚ := 0
  targetDistance : ℚ := 0
  turretDegreeCurrent : ℚ := 0
  turretOutput : ℚ := 0
  intakeStatus : Bool := false
  isPressed : Bool := false
  lastPressed : Bool := false
  manualControl : Bool := false
  fireWhenReady : Bool := false
  degreeOff : ℚ := 0
  ready : Bool := false
  speed : ℚ := INITIAL_SPEED
  currentTime : ℤ := 0
  startingTurret : ℚ := 0
  currentEnum : Diagnostics := .done
  visionOff : Bool := false
  increaseSeen : ℤ := 0
  decreaseSeen : ℤ := 0
  flyWheel : ℚ := 0
  feeder : ℚ := 0
  turret : ℚ := 0
  shroud : ℚ := 0
  deriving DecidableEq, Repr

/-- What one iteration reads: the station and its joysticks, the encoders and limit
switches, the values the camera shared, and two readings of the clock. -/
structure ShooterReading where
  mode : Mode := .autoEnabled
  speedCurrent : ℚ := 0
  relDegrees : ℚ := 0
  diagnosticsPressed : Bool := false
  flipSystemOn : Bool := false
  buttonFire : Bool := false
  flipBoilerShot : Bool := false
  fireOverride : Bool := false
  shroudAxis : ℚ := 0
  turretAxis : ℚ := 0
  increaseAt : ℤ := 0
  decreaseAt : ℤ := 0
  allianceBlue : Bool := false
  distanceToBoiler : ℚ := 0
  angleToBoiler : ℚ := 0
  imageTime : ℚ := 0
  limitLeft : Bool := false
  limitRight : Bool := false
  checkNow : ℤ := 0
  setNow : ℤ := 0
  deriving Repr

def diagnostics (r : ShooterReading) (s : ShooterState) : ShooterState :=
  match s.currentEnum with
  | .done => { s with flyWheel := 0, degreeOff := s.turretDegreeCurrent }
  | .flywheel =>
      { s with flyWheel := 0.5, currentTime := r.setNow, currentEnum := .flywheelWait }
  | .flywheelWait =>
      let s := { s with degreeOff := 0 }
      if r.checkNow < s.currentTime + 1000 then s
      else
        { s with
          flyWheel := 0
          startingTurret := s.turretDegreeCurrent
          currentTime := r.setNow
          currentEnum := .turretWait1 }
  | .turretWait1 =>
      let s := { s with degreeOff := 5 }
      if r.checkNow < s.currentTime + 1000 then s
      else { s with currentTime := r.setNow, currentEnum := .turretWait2 }
  | .turretWait2 =>
      let s := { s with degreeOff := -5 }
      if r.checkNow < s.currentTime + 1000 then s else { s with currentEnum := .done }

/-- The sensors, and the diagnostics while their button is held. -/
def sense (r : ShooterReading) (s : ShooterState) : ShooterState :=
  let s := { s with shootingSpeedCurrent := r.speedCurrent, turretDegreeCurrent := r.relDegrees }
  if r.diagnosticsPressed then diagnostics r s else { s with currentEnum := .flywheel }

/-- The shooting system command: outside autonomous it comes from the joysticks, or is
cleared. -/
def readCommand (r : ShooterReading) (s : ShooterState) : ShooterState :=
  if !r.mode.isAutonomous then
    if r.mode.isOperatorControl then
      let s := { s with
        visionOff := false
        isPressed := r.flipSystemOn
        fireWhenReady := r.buttonFire }
      let s := if r.flipBoilerShot && !s.manualControl then
        { s with speed := INITIAL_SPEED, shroudOutput := 0, degreeOff := 0 } else s
      { s with manualControl := r.flipBoilerShot }
    else { s with isPressed := false, fireWhenReady := false, manualControl := false }
  else s

/-- The override is a local of the iteration: only operator control sets it. -/
def fireOverrides (r : ShooterReading) : Bool :=
  !r.mode.isAutonomous && r.mode.isOperatorControl && r.fireOverride

/-- Aiming by the camera. -/
def aim (r : ShooterReading) (s : ShooterState) : ShooterState :=
  if !s.manualControl && !s.visionOff then
    let s := { s with targetDistance := r.distanceToBoiler }
    let blueOffset : ℚ := if r.mode.isAutonomous && r.allianceBlue then 3 else 0
    if !r.mode.isAutonomous || decide (r.imageTime < 3) then
      { s with degreeOff := r.angleToBoiler - 1 - blueOffset }
    else s
  else s

/-- The block that runs when the system command has changed, with the target it shares. -/
def transition (s : ShooterState) : ShooterState × Option Target :=
  if s.lastPressed ≠ s.isPressed then
    let t := if s.isPressed && !s.manualControl then { s with speed := INITIAL_SPEED } else s
    ({ t with lastPressed := s.isPressed },
      some (if s.isPressed then .boiler else .none))
  else (s, none)

def turretCtrl (r : ShooterReading) (s : ShooterState) : ShooterState × Bool :=
  let manual := s.visionOff || s.manualControl
  let degreeOff :=
    if manual then
      let d := if r.turretAxis < -0.25 ∨ r.turretAxis > 0.25 then s.degreeOff - r.turretAxis / 3
        else s.degreeOff
      if d < -20 then -20 else if d > 20 then 20 else d
    else s.degreeOff
  let onTarget := ¬ s.turretDegreeCurrent < degreeOff - 0.5 ∧
    ¬ s.turretDegreeCurrent > degreeOff + 0.5
  let output : ℚ := if s.turretDegreeCurrent < degreeOff - 0.5 then 0.5
    else if s.turretDegreeCurrent > degreeOff + 0.5 then -0.5 else 0
  let output := output * (0.2 + |s.turretDegreeCurrent - degreeOff| * 0.25)
  let output := if (r.limitRight ∧ output < 0) ∨ (r.limitLeft ∧ output > 0) then 0 else output
  ({ s with degreeOff := degreeOff, turretOutput := output }, manual || decide onTarget)

/-- `distanceToSpeed`, with `fl` the rounding of each result and of the constants. -/
def speedForDistance (fl : ℚ → ℚ) (s : ShooterState) : ℚ :=
  if s.targetDistance < 35 then 1400
  else if s.targetDistance < 85 then fl (1400 + fl (fl (s.targetDistance - 35) * 1.5))
  else fl (1450 + fl (fl (s.targetDistance - 85) * fl 7.6))

/-- In exact arithmetic. -/
def distanceToSpeed : ShooterState → ℚ := speedForDistance id

def distanceToShroud (s : ShooterState) : ℚ :=
  if s.targetDistance < 35 then 0
  else if s.targetDistance > 90 then 0.5
  else (s.targetDistance - 35) * 0.009

/-- The limits of the manual shroud. -/
def clampShroud (x : ℚ) : ℚ := if x > 0.5 then 0.5 else if x < 0 then 0 else x

/-- Manual speed: one of the two buttons, the decrease only looked at when the increase
did not rise. -/
def adjustSpeed (r : ShooterReading) (s : ShooterState) : ShooterState :=
  let inc := getButtonRising s.increaseSeen r.increaseAt
  let s := { s with increaseSeen := inc.2 }
  if inc.1 then { s with speed := s.speed + 25 }
  else
    let dec := getButtonRising s.decreaseSeen r.decreaseAt
    let s := { s with decreaseSeen := dec.2 }
    if dec.1 then { s with speed := s.speed - 25 } else s

/-- The set points of the flywheel and the shroud while the system is on. -/
def setPoints (r : ShooterReading) (s : ShooterState) : ShooterState :=
  if s.visionOff || s.manualControl then
    let s := adjustSpeed r { s with
      shroudOutput := clampShroud (s.shroudOutput - r.shroudAxis / 100) }
    { s with shootingSpeed := s.speed }
  else
    { s with
      shootingSpeed := speedForDistance Java.roundDouble s
      shroudOutput := distanceToShroud s }

/-- The power that holds a set speed. -/
def holdingPower (shootingSpeed : ℚ) : ℚ :=
  Java.roundDouble
    (FLYWHEEL_DECAY + Java.roundDouble (shootingSpeed * Java.roundDouble 0.0001))

/-- The flywheel regulator; where neither comparison holds it leaves the motor alone. -/
def regulate (s : ShooterState) : ShooterState :=
  if s.shootingSpeedCurrent < Java.roundDouble (s.shootingSpeed - SPEED_ALLOWED_OFF) then
    { s with flyWheel := FLYWHEEL_MAX }
  else if Java.roundDouble (s.shootingSpeedCurrent + SPEED_ALLOWED_OFF) > s.shootingSpeed then
    { s with flyWheel := holdingPower s.shootingSpeed }
  else s

def speedCtrl (r : ShooterReading) (s : ShooterState) : ShooterState × Bool :=
  if !s.isPressed then ({ s with flyWheel := 0 }, false)
  else
    let s := regulate (setPoints r s)
    (s, !decide (|s.shootingSpeedCurrent - s.shootingSpeed| > FLYWHEEL_DEADBAND))

/-- The feeder, the turret motor and the shroud servo. -/
def drive (override : Bool) (s : ShooterState) : ShooterState :=
  let fires := (s.ready && s.fireWhenReady) || override
  { s with
    feeder := if fires then INTAKE_BALL_SPEED else 0
    intakeStatus := fires
    turret := s.turretOutput
    shroud := s.shroudOutput }

/-- One iteration; the output is the target it shares with the camera, if it does. -/
def execute (r : ShooterReading) (s : ShooterState) : ShooterState × Option Target :=
  let (s, target) := transition (aim r (readCommand r (sense r s)))
  let (s, turretReady) := turretCtrl r s
  let (s, shooterReady) := speedCtrl r s
  (drive (fireOverrides r) { s with ready := turretReady && shooterReady }, target)

/-- The mode is the one the station reports at the call. -/
def shooterSystemState (mode : Mode) (isOn speeds vision shroudPos : ℤ) (s : ShooterState) :
    ShooterState :=
  let s := if isOn = 1 ∧ mode.isAutonomous then
    { s with speed := speeds, shroud := shroudPos / 100, isPressed := true }
    else { s with isPressed := false }
  { s with visionOff := decide (vision = 1) }

def shooterSystemFire (mode : Mode) (fire : ℤ) (s : ShooterState) : ShooterState :=
  { s with fireWhenReady := decide (fire = 1) && mode.isAutonomous }

def shooterSetTurret (turretAngle : ℤ) (s : ShooterState) : ShooterState :=
  { s with degreeOff := turretAngle }

inductive ShooterEvent where
  | execute (r : ShooterReading)
  | shooterSystemState (mode : Mode) (isOn speeds vision shroudPos : ℤ)
  | shooterSystemFire (mode : Mode) (fire : ℤ)
  | shooterSetTurret (turretAngle : ℤ)

def shooterStep : Step ShooterState ShooterEvent (Option Target)
  | s, .execute r => execute r s
  | s, .shooterSystemState mode isOn speeds vision shroudPos =>
      (shooterSystemState mode isOn speeds vision shroudPos s, none)
  | s, .shooterSystemFire mode fire => (shooterSystemFire mode fire s, none)
  | s, .shooterSetTurret turretAngle => (shooterSetTurret turretAngle s, none)

/-- States reached from `init` by any events. -/
def Reachable (s : ShooterState) : Prop := ∃ past, final shooterStep {} past = s

end SparxRobot.Shooter
