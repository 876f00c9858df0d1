import SparxRobot.Drives.Iteration
import SparxRobot.Machine.Run

/-! The drives as a machine: iterations in any mode, interleaved with the public commands.
Here are also the three commands that no other modelled subsystem calls. -/
namespace SparxRobot.Drives
open Machine

variable {R : Type*} [Field R] [LinearOrder R]

/-- Unlike the other turns it leaves `autoReady` as it is. -/
def autoTurnLift (angleToLift speed : R) (s : DrivesState R) : DrivesState R × Bool :=
  if !isAutoDone s then (s, false)
  else
    ({ s with
        turnDone := false
        wantedAngle := angleToLift
        wantedSpeed := speed
        currentDriveState := .autoTurn }, true)

def holdDrives (s : DrivesState R) : DrivesState R × Bool :=
  if !isAutoDone s then (s, false) else ({ s with currentDriveState := .autoHold }, true)

/-- The distance to a point, and the angle in radians. -/
def trig [JavaMath R] (newX newY : R) (s : DrivesState R) : DrivesState R :=
  let xChange := newX - s.currentX
  let yChange := newY - s.currentY
  { s with
    wantedDistance := JavaMath.sqrt (xChange * xChange + yChange * yChange)
    wantedAngle := Java.atanOfQuotient xChange yChange }

/-- The flags are the ones of the last turn and the last drive there were. -/
def travelToCoordinate [JavaMath R] (angle xValue yValue driveSpeed turnSpeed : R)
    (s : DrivesState R) : DrivesState R × Bool :=
  if !isAutoDone s then (s, false)
  else
    let s := trig xValue yValue s
    let s := (autoTurnToAngle s.wantedAngle turnSpeed s).1
    let s := if s.turnDone then (autoDriveDistance angle s.wantedDistance driveSpeed s).1 else s
    let s := if s.driveDone then { s with currentDriveState := .standby, autoReady := true } else s
    (s, true)

/-- The public commands, with what the gyro and the camera say when they are called. -/
inductive DriveCommand (R : Type*) where
  | autoDriveDistance (angle distance speed : R)
  | autoDrivePoint (angle distance speed : R)
  | autoDriveCoordinate (x y speed : R)
  | moveToLift (angle distanceToLift angleToLift speed : R)
  | autoTurnToHeading (angle speed : R)
  | autoTurnToAngle (angle speed : R)
  | autoTurnLift (angleToLift speed : R)
  | holdDrives
  | travelToCoordinate (angle xValue yValue driveSpeed turnSpeed : R)

/-- The drives after a command, and its answer. -/
def issue [JavaMath R] : DriveCommand R → DrivesState R → DrivesState R × Bool
  | .autoDriveDistance angle distance speed => autoDriveDistance angle distance speed
  | .autoDrivePoint angle distance speed => autoDrivePoint angle distance speed
  | .autoDriveCoordinate x y speed => autoDriveCoordinate x y speed
  | .moveToLift angle distanceToLift angleToLift speed =>
      moveToLift angle distanceToLift angleToLift speed
  | .autoTurnToHeading angle speed => autoTurnToHeading angle speed
  | .autoTurnToAngle angle speed => autoTurnToAngle angle speed
  | .autoTurnLift angleToLift speed => autoTurnLift angleToLift speed
  | .holdDrives => holdDrives
  | .travelToCoordinate angle x y driveSpeed turnSpeed =>
      travelToCoordinate angle x y driveSpeed turnSpeed

inductive DrivesEvent (R : Type*) [Field R] where
  | execute (r : DrivesReading R)
  | command (c : DriveCommand R)
  | abortAuto
  | stopDrives
  | setStartingCoordinate (angle x y : R)

/-- The output is the answer of the call; a call without one shows `false`. -/
def drivesStep [FloorRing R] [JavaMath R] : Step (DrivesState R) (DrivesEvent R) Bool
  | s, .execute r => (execute r s, false)
  | s, .command c => issue c s
  | s, .abortAuto => (abortAuto s, false)
  | s, .stopDrives => stopDrives s
  | s, .setStartingCoordinate angle x y => (setStartingCoordinate angle x y s, false)

abbrev DrivesMoment (R : Type*) [Field R] [LinearOrder R] :=
  Moment (DrivesState R) (DrivesEvent R) Bool

@[simp] theorem moment_execute_post [FloorRing R] [JavaMath R] (s : DrivesState R)
    (r : DrivesReading R) : (moment drivesStep s (.execute r)).post = execute r s := rfl

/-- States reached from power-on by any events. -/
def Reachable [FloorRing R] [JavaMath R] (s : DrivesState R) : Prop :=
  ∃ past, final drivesStep ({} : DrivesState R) past = s

/-- The iterations after a command. -/
def iterations [FloorRing R] [JavaMath R] (s : DrivesState R) (rs : List (DrivesReading R)) :
    List (DrivesMoment R) :=
  trace drivesStep s (rs.map .execute)

/-- A drive, a turn or a hold has the drives. -/
def DriveState.isEngaged : DriveState → Bool
  | .autoDriveDistance | .autoDrivePoint | .autoTurn | .autoHold => true
  | _ => false

/-- No iteration starts a motion. -/
theorem execute_starts_none [FloorRing R] [JavaMath R] {s : DrivesState R} {q : DriveState}
    (hq : q.isEngaged = true) (r : DrivesReading R) (hother : s.currentDriveState ≠ q) :
    (execute r s).currentDriveState ≠ q := by
  have hidle : ∀ q', q'.isEngaged = false → q' ≠ q := by
    rintro q' hq' rfl
    exact Bool.noConfusion (hq.symm.trans hq')
  have hends : ∀ {t : DrivesState R}, GoesOnOrEnds s.currentDriveState t →
      t.currentDriveState ≠ q := by
    rintro t (⟨hstate, -⟩ | ⟨hstate, -⟩) <;> rw [hstate]
    · exact hother
    · exact hidle _ rfl
  rw [execute_currentDriveState]
  unfold runState
  rw [sense_currentDriveState]
  cases hs : s.currentDriveState <;> dsimp only
  case standby => (repeat' split) <;> exact hidle _ rfl
  case autoDriveDistance => exact hends (driveDistance_ends r (sense r s))
  case autoDrivePoint => exact hends (drivePoint_ends r (sense r s))
  case autoTurn => exact hends (turn_ends (sense r s))
  case autoHold => exact hends (hs ▸ hold_ends r (sense r s) hs)
  case autoStop => exact hends (hs ▸ stopDrives_ends (sense r s))
  case teleop =>
    rw [(teleop_kept r (sense r s)).1]
    exact hother
  case autoAbort | disabled => exact hidle _ rfl

section Commands

variable [JavaMath R] (c : DriveCommand R) {s : DrivesState R}

/-- Drives that are not done refuse every command and stay as they are. -/
theorem issue_refused (h : isAutoDone s = false) : issue c s = (s, false) := by
  cases c <;> simp [issue, autoDriveDistance, autoDrivePoint, autoDriveCoordinate, moveToLift,
    autoTurnToHeading, autoTurnToAngle, autoTurnLift, holdDrives, travelToCoordinate, h]

/-- A command writes its orders and the flags, and nothing else. -/
theorem issue_eq (s : DrivesState R) : (issue c s).1 =
    { s with
      driveDone := (issue c s).1.driveDone
      turnDone := (issue c s).1.turnDone
      autoReady := (issue c s).1.autoReady
      currentDriveState := (issue c s).1.currentDriveState
      wantedDistance := (issue c s).1.wantedDistance
      wantedAngle := (issue c s).1.wantedAngle
      wantedSpeed := (issue c s).1.wantedSpeed
      initialHeading := (issue c s).1.initialHeading
      endX := (issue c s).1.endX
      endY := (issue c s).1.endY } := by
  cases c <;> simp only [issue, autoDriveDistance, autoDrivePoint, autoDriveCoordinate, moveToLift,
    autoTurnToHeading, autoTurnToAngle, autoTurnLift, holdDrives, travelToCoordinate] <;>
    (repeat' split) <;> rfl

/-- The state a travel leaves: a new turn, or standby when an earlier drive is done. -/
theorem travelToCoordinate_accepted (angle x y driveSpeed turnSpeed : R)
    (h : isAutoDone s = true) :
    let t := (travelToCoordinate angle x y driveSpeed turnSpeed s).1
    (travelToCoordinate angle x y driveSpeed turnSpeed s).2 = true ∧
      t.currentDriveState = (if s.driveDone then .standby else .autoTurn) ∧
      t.autoReady = s.driveDone ∧ t.driveDone = s.driveDone ∧
      t.rightWantedSpeed = s.rightWantedSpeed ∧ t.leftWantedSpeed = s.leftWantedSpeed := by
  have htrig : isAutoDone (trig x y s) = true := h
  cases hd : s.driveDone <;>
    simp [travelToCoordinate, h, autoTurnToAngle, htrig] <;> simp [trig, hd]

/-- An accepted command takes the drives, but for a travel after a finished drive, and the
wheels keep the speeds they have. -/
theorem issue_accepted (h : isAutoDone s = true) : (issue c s).2 = true ∧
    (issue c s).1.rightWantedSpeed = s.rightWantedSpeed ∧
    (issue c s).1.leftWantedSpeed = s.leftWantedSpeed ∧
    ((issue c s).1.currentDriveState.isEngaged = true ∨
      (∃ angle x y driveSpeed turnSpeed,
        c = .travelToCoordinate angle x y driveSpeed turnSpeed) ∧ s.driveDone = true) := by
  cases c with
  | travelToCoordinate angle x y driveSpeed turnSpeed =>
    obtain ⟨haccepted, hstate, -, -, hright, hleft⟩ :=
      travelToCoordinate_accepted angle x y driveSpeed turnSpeed h
    refine ⟨haccepted, hright, hleft, ?_⟩
    cases hd : s.driveDone with
    | true => exact .inr ⟨⟨angle, x, y, driveSpeed, turnSpeed, rfl⟩, rfl⟩
    | false =>
      rw [hd] at hstate
      exact .inl (by simp [issue, hstate, DriveState.isEngaged])
  | _ => simp [issue, autoDriveDistance, autoDrivePoint, autoDriveCoordinate, moveToLift,
      autoTurnToHeading, autoTurnToAngle, autoTurnLift, holdDrives, h, DriveState.isEngaged]

end Commands

end SparxRobot.Drives
