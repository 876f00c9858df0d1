import SparxRobot.Drives.Command

/-! The drives with all of their public methods. Beside the commands anyone may set speeds by
joystick, stop the motors, hold the drives or test the motors. -/
namespace SparxRobot.Drives
open Machine

variable {R : Type*} [Field R] [LinearOrder R]

def X_SENSITIVITY (R : Type*) [Field R] : R := 1.25

def setArcadeSpeed (xAxis yAxis : R) (isInverted : Bool) (s : DrivesState R) : DrivesState R :=
  if !isInverted then
    { s with
      rightWantedSpeed := -(yAxis + xAxis / X_SENSITIVITY R) * MAX_SPEED R
      leftWantedSpeed := -(yAxis - xAxis / X_SENSITIVITY R) * MAX_SPEED R }
  else
    { s with
      rightWantedSpeed := (yAxis - xAxis / X_SENSITIVITY R) * MAX_SPEED R
      leftWantedSpeed := (yAxis + xAxis / X_SENSITIVITY R) * MAX_SPEED R }

/-- Some of these only the loop of the drives calls, but they are public. What `hold` and
`diagnostics` read when they are called is in a reading of its own. -/
inductive DrivesCall (R : Type*) [Field R] where
  | event (e : DrivesEvent R)
  | setTankSpeed (right left : R) (isInverted : Bool)
  | setArcadeSpeed (xAxis yAxis : R) (isInverted : Bool)
  | abort
  | hold (r : DrivesReading R)
  | diagnostics (r : DrivesReading R)

variable [FloorRing R] [JavaMath R]

def callStep : Step (DrivesState R) (DrivesCall R) Bool
  | s, .event e => drivesStep s e
  | s, .setTankSpeed right left isInverted => (setTankSpeed right left isInverted s, false)
  | s, .setArcadeSpeed xAxis yAxis isInverted => (setArcadeSpeed xAxis yAxis isInverted s, false)
  | s, .abort => (abort s, false)
  | s, .hold r => (hold r s, false)
  | s, .diagnostics r => (diagnostics r s, false)

abbrev CallMoment (R : Type*) [Field R] [LinearOrder R] :=
  Moment (DrivesState R) (DrivesCall R) Bool

/-- The call is an iteration of the loop. -/
def DrivesCall.reading : DrivesCall R → Option (DrivesReading R)
  | .event (.execute r) => some r
  | _ => none

omit [LinearOrder R] [FloorRing R] [JavaMath R] in
theorem reading_eq_some {c : DrivesCall R} {r : DrivesReading R} (h : c.reading = some r) :
    c = .event (.execute r) := by
  cases c with
  | event e =>
    cases e with
    | execute r' =>
      obtain rfl : r' = r := Option.some.inj h
      rfl
    | _ => nomatch h
  | _ => nomatch h

/-- The call puts the robot somewhere else on the field. -/
def DrivesCall.Places (c : DrivesCall R) : Prop :=
  ∃ angle x y, c = .event (.setStartingCoordinate angle x y)

/-- What only iterations and placing the robot write: where it is, the zero of its gyro, what
the encoders have counted, and whether the motor test has the motors. -/
structure Undisturbed (s t : DrivesState R) : Prop where
  currentX : t.currentX = s.currentX
  currentY : t.currentY = s.currentY
  rightPreviousDistance : t.rightPreviousDistance = s.rightPreviousDistance
  leftPreviousDistance : t.leftPreviousDistance = s.leftPreviousDistance
  rightCurrentDistance : t.rightCurrentDistance = s.rightCurrentDistance
  leftCurrentDistance : t.leftCurrentDistance = s.leftCurrentDistance
  isDiagnostic : t.isDiagnostic = s.isDiagnostic
  gyroZero : t.gyroZero = s.gyroZero

section Undisturbed

omit [FloorRing R] [JavaMath R]

theorem Undisturbed.refl (s : DrivesState R) : Undisturbed s s :=
  ⟨rfl, rfl, rfl, rfl, rfl, rfl, rfl, rfl⟩

theorem Undisturbed.trans {s t u : DrivesState R} (h : Undisturbed s t) (h' : Undisturbed t u) :
    Undisturbed s u :=
  ⟨h'.1.trans h.1, h'.2.trans h.2, h'.3.trans h.3, h'.4.trans h.4, h'.5.trans h.5,
    h'.6.trans h.6, h'.7.trans h.7, h'.8.trans h.8⟩

theorem issue_undisturbed [JavaMath R] (c : DriveCommand R) (s : DrivesState R) :
    Undisturbed s (issue c s).1 := by
  rw [issue_eq]
  exact ⟨rfl, rfl, rfl, rfl, rfl, rfl, rfl, rfl⟩

theorem stopDrives_undisturbed (s : DrivesState R) : Undisturbed s (stopDrives s).1 := by
  unfold stopDrives
  extract_lets
  split <;> exact ⟨rfl, rfl, rfl, rfl, rfl, rfl, rfl, rfl⟩

theorem diagnostics_undisturbed (r : DrivesReading R) (s : DrivesState R) :
    Undisturbed s (diagnostics r s) := by
  rw [diagnostics_eq]
  exact ⟨rfl, rfl, rfl, rfl, rfl, rfl, rfl, rfl⟩

/-- A hold only gives commands. -/
theorem hold_undisturbed [JavaMath R] (r : DrivesReading R) (s : DrivesState R) :
    Undisturbed s (hold r s) := by
  unfold hold
  extract_lets changeY changeAngle t u v
  have ht : Undisturbed s t := ⟨rfl, rfl, rfl, rfl, rfl, rfl, rfl, rfl⟩
  have hu : Undisturbed t u := by
    unfold u
    split
    · exact issue_undisturbed (.autoDriveDistance r.commandAngle changeY (HOLDING_DRIVE_SPEED R)) t
    · exact .refl t
  have hv : Undisturbed u v := by
    unfold v
    split
    · exact issue_undisturbed (.autoTurnToHeading u.previousAngle (HOLDING_TURN_SPEED R)) u
    · exact .refl u
  have hdone : Undisturbed v { v with currentDriveState := .standby, autoReady := true } :=
    ⟨rfl, rfl, rfl, rfl, rfl, rfl, rfl, rfl⟩
  split
  · exact ((ht.trans hu).trans hv).trans hdone
  · exact (ht.trans hu).trans hv

end Undisturbed

/-- A method that neither iterates nor places the robot leaves it where it is. -/
theorem call_undisturbed {c : DrivesCall R} (hr : c.reading = none) (hp : ¬ c.Places)
    (s : DrivesState R) : Undisturbed s (callStep s c).1 := by
  cases c with
  | event e =>
    cases e with
    | execute r => exact absurd hr (Option.some_ne_none r)
    | command c => exact issue_undisturbed c s
    | abortAuto => exact ⟨rfl, rfl, rfl, rfl, rfl, rfl, rfl, rfl⟩
    | stopDrives => exact stopDrives_undisturbed s
    | setStartingCoordinate angle x y => exact absurd ⟨angle, x, y, rfl⟩ hp
  | setTankSpeed right left isInverted =>
    cases isInverted <;> exact ⟨rfl, rfl, rfl, rfl, rfl, rfl, rfl, rfl⟩
  | setArcadeSpeed xAxis yAxis isInverted =>
    cases isInverted <;> exact ⟨rfl, rfl, rfl, rfl, rfl, rfl, rfl, rfl⟩
  | abort => exact ⟨rfl, rfl, rfl, rfl, rfl, rfl, rfl, rfl⟩
  | hold r => exact hold_undisturbed r s
  | diagnostics r => exact diagnostics_undisturbed r s

end SparxRobot.Drives
