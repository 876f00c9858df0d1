import SparxRobot.Autonomous.History
import SparxRobot.Drives.Execute
import SparxRobot.Shooter.Execute
import SparxRobot.BallAcq.Execute

/-! The robot: autonomous, drives, shooter and ball acquisition side by side. Each event is
one iteration of one subsystem's loop or one callback of `Robot`, taken as a whole; an
autonomous iteration asks the drives of that moment and then makes its calls. -/
namespace SparxRobot.Robot
open Machine Autonomous Drives Shooter BallAcq

variable {R : Type*} [Field R] [LinearOrder R]

structure RobotState (R : Type*) [Field R] [LinearOrder R] where
  auto : AutoState := {}
  drives : DrivesState R := {}
  shooter : ShooterState := {}
  ballacq : BallAcqState := {}

/-- What the calls of an iteration read: the gyro and the camera's lift target. -/
structure CallReading (R : Type*) [Field R] where
  gyroAngle : R := 0
  distanceToLift : R := 0
  angleToLift : R := 0

/-- A call on the drives, with the answer of the commands that have one. -/
def performDrives [JavaMath R] (w : CallReading R) (c : Call) (d : DrivesState R) :
    DrivesState R × Bool :=
  match c with
  | .autoDrivePoint distance speed => autoDrivePoint w.gyroAngle distance speed d
  | .autoTurnToHeading angle speed => autoTurnToHeading angle speed d
  | .autoTurnToAngle angle speed => autoTurnToAngle angle speed d
  | .autoDriveCoordinate x y speed => autoDriveCoordinate x y speed d
  | .moveToLift speed => moveToLift w.gyroAngle w.distanceToLift w.angleToLift speed d
  | .setStartingCoordinate x y => (setStartingCoordinate w.gyroAngle x y d, true)
  | .stopDrives => stopDrives d
  | .isAutoDone => (d, Drives.isAutoDone d)
  | .abortAuto => (abortAuto d, true)
  | _ => (d, true)

def performShooter (mode : Mode) (c : Call) (s : ShooterState) : ShooterState :=
  match c with
  | .shooterSystemState isOn speeds vision shroudPos =>
      shooterSystemState mode isOn speeds vision shroudPos s
  | .shooterSystemFire fire => shooterSystemFire mode fire s
  | .shooterSetTurret turretAngle => shooterSetTurret turretAngle s
  | _ => s

def performBallAcq (mode : Mode) (c : Call) (b : BallAcqState) : BallAcqState :=
  match c with
  | .autoChanger selector subSelector => autoChanger mode selector subSelector b
  | _ => b

/-- One call, on the subsystem it is addressed to. -/
def perform [JavaMath R] (mode : Mode) (w : CallReading R) (s : RobotState R) (c : Call) :
    RobotState R :=
  { s with
    drives := (performDrives w c s.drives).1
    shooter := performShooter mode c s.shooter
    ballacq := performBallAcq mode c s.ballacq }

def performAll [JavaMath R] (mode : Mode) (w : CallReading R) (calls : List Call)
    (s : RobotState R) : RobotState R :=
  calls.foldl (perform mode w) s

/-- An autonomous reading with the answers of the drives filled in. -/
def answered (r : Reading) (d : DrivesState R) : Reading :=
  { r with autoDone := Drives.isAutoDone d, stopped := (stopDrives d).2 }

inductive RobotEvent (R : Type*) [Field R] where
  | autonomous (r : Reading) (w : CallReading R)
  | drives (r : DrivesReading R)
  | shooter (r : ShooterReading)
  | ballacq (r : BallAcqReading)
  | setRunAuto (auto : Bool) (mode : Mode) (w : CallReading R)

/-- What the calls of an event read. -/
def RobotEvent.callReading : RobotEvent R → CallReading R
  | .autonomous _ w => w
  | .setRunAuto _ _ w => w
  | _ => {}

/-- A script selected and started, with an iteration at each of these times. -/
def scriptRun (R : Type*) [Field R] (a : Script) (times : List ℤ) : List (RobotEvent R) :=
  .autonomous { mode := .autoDisabled, selected := a } {} :: .setRunAuto true .autoEnabled {} ::
    times.map fun now => .autonomous (readsAt now false) {}

/-- The output of an event is what the autonomous subsystem showed, if it took part. -/
def robotStep [FloorRing R] [JavaMath R] : Step (RobotState R) (RobotEvent R) Tick
  | s, .autonomous r w =>
      let o := Autonomous.execute (answered r s.drives) s.auto
      (performAll r.mode w o.2.calls { s with auto := o.1 }, o.2)
  | s, .drives r => ({ s with drives := Drives.execute r s.drives }, {})
  | s, .shooter r => ({ s with shooter := (Shooter.execute r s.shooter).1 }, {})
  | s, .ballacq r => ({ s with ballacq := BallAcq.execute r s.ballacq }, {})
  | s, .setRunAuto auto mode w =>
      let o := Autonomous.setRunAuto auto s.auto
      (performAll mode w o.2.calls { s with auto := o.1 }, o.2)

abbrev RobotMoment (R : Type*) [Field R] [LinearOrder R] :=
  Moment (RobotState R) (RobotEvent R) Tick

section Perform

variable [JavaMath R] (mode : Mode) (w : CallReading R)

@[simp] theorem performAll_nil (s : RobotState R) : performAll mode w [] s = s := rfl

@[simp] theorem performAll_cons (c : Call) (cs : List Call) (s : RobotState R) :
    performAll mode w (c :: cs) s = performAll mode w cs (perform mode w s c) := rfl

@[simp] theorem perform_auto (s : RobotState R) (c : Call) :
    (perform mode w s c).auto = s.auto := rfl

@[simp] theorem performAll_auto (calls : List Call) (s : RobotState R) :
    (performAll mode w calls s).auto = s.auto := by
  induction calls generalizing s with
  | nil => rfl
  | cons c cs ih => exact (ih _).trans (perform_auto mode w s c)

end Perform

end SparxRobot.Robot
