import Mathlib.Algebra.Order.Ring.Rat
import Mathlib.Tactic.NormNum
import SparxRobot.Station.Mode

/-! The ball acquisition: its two acquisition motors and the horizontal belt. Doubles are
rationals, and what the POV reports in an iteration is an input. -/
namespace SparxRobot.BallAcq

def BELT_RAMP : ℚ := 0.1

inductive State where
  | standby | forward | backward | shooting
  deriving DecidableEq, Repr

inductive BeltState where
  | forward | forwardWait | reverse | reverseWait | standby
  deriving DecidableEq, Repr

inductive HorizontalBeltState where
  | right | left | standby
  deriving DecidableEq, Repr

/-- The fields of `BallAcq` and what its motors were last set to. -/
structure BallAcqState where
  currentAcqStatus : State := .standby
  currentBeltState : BeltState := .standby
  currentHorizontalBeltState : HorizontalBeltState := .standby
  startBeltTime : ℤ := 0
  wantedSpeed : ℚ := 0
  wantedBeltSpeed : ℚ := 0
  acqIsAcquiring : Bool := false
  acqMotorLeft : ℚ := 0
  acqMotorRight : ℚ := 0
  horizontalBeltMotor : ℚ := 0
  deriving DecidableEq, Repr

/-- The mode, what `getPOVRising` answers for each direction, and the clock. -/
structure BallAcqReading where
  mode : Mode := .autoEnabled
  acqOn : Bool := false
  feedRight : Bool := false
  acqOff : Bool := false
  feedLeft : Bool := false
  now : ℤ := 0
  deriving Repr

def setAcqState (r : BallAcqReading) (s : BallAcqState) : BallAcqState :=
  if r.mode.isDisabled then
    { s with
      currentAcqStatus := .standby
      currentBeltState := .standby
      currentHorizontalBeltState := .standby }
  else if r.mode.isOperatorControl then
    if r.acqOn then { s with currentAcqStatus := .forward, currentBeltState := .standby }
    else if r.feedRight then
      { s with
        currentAcqStatus := .shooting
        currentBeltState := .forward
        currentHorizontalBeltState := .right }
    else if r.acqOff then
      { s with
        currentAcqStatus := .standby
        currentBeltState := .standby
        currentHorizontalBeltState := .standby }
    else if r.feedLeft then
      { s with
        currentAcqStatus := .shooting
        currentBeltState := .reverse
        currentHorizontalBeltState := .left }
    else s
  else s

/-- The vertical belt while shooting: forward for a while, then back for a shorter one. -/
def runBelt (r : BallAcqReading) (s : BallAcqState) : BallAcqState :=
  match s.currentBeltState with
  | .forward =>
      { s with startBeltTime := r.now, wantedSpeed := -1, currentBeltState := .forwardWait }
  | .forwardWait =>
      { s with
        currentBeltState := if r.now ≥ s.startBeltTime + 1500 then .reverse else .forwardWait
        wantedSpeed := -1 }
  | .reverse =>
      { s with startBeltTime := r.now, wantedSpeed := 1, currentBeltState := .reverseWait }
  | .reverseWait =>
      { s with
        currentBeltState := if r.now ≥ s.startBeltTime + 400 then .forward else .reverseWait
        wantedSpeed := 1 }
  | .standby => { s with wantedSpeed := 0 }

def runAcq (r : BallAcqReading) (s : BallAcqState) : BallAcqState :=
  match s.currentAcqStatus with
  | .standby => { s with wantedSpeed := 0, acqIsAcquiring := false }
  | .forward => { s with wantedSpeed := 1, acqIsAcquiring := true }
  | .backward => { s with wantedSpeed := -1, acqIsAcquiring := false }
  | .shooting => runBelt r { s with acqIsAcquiring := false }

/-- The ramp of the horizontal belt, one step an iteration. -/
def horizontalSpeed (belt : HorizontalBeltState) (speed : ℚ) : ℚ :=
  match belt with
  | .standby => 0
  | .left => if speed > -1 then speed - BELT_RAMP else -1
  | .right => if speed < 1 then speed + BELT_RAMP else 1

def drive (s : BallAcqState) : BallAcqState :=
  let belt := horizontalSpeed s.currentHorizontalBeltState s.wantedBeltSpeed
  { s with
    wantedBeltSpeed := belt
    acqMotorRight := -s.wantedSpeed
    acqMotorLeft := s.wantedSpeed
    horizontalBeltMotor := belt }

def execute (r : BallAcqReading) (s : BallAcqState) : BallAcqState :=
  drive (runAcq r (setAcqState r s))

/-- The mode is the one the station reports at the call. -/
def autoChanger (mode : Mode) (selector subSelector : ℤ) (s : BallAcqState) : BallAcqState :=
  if mode.isAutonomous then
    match selector, subSelector with
    | 1, 1 => { s with currentAcqStatus := .standby }
    | 1, 2 => { s with currentAcqStatus := .forward }
    | 1, 3 => { s with currentAcqStatus := .backward }
    | 1, 4 => { s with currentAcqStatus := .shooting }
    | 2, 1 => { s with currentBeltState := .standby }
    | 2, 2 => { s with currentBeltState := .forward }
    | 2, 3 => { s with currentBeltState := .reverse }
    | 3, 1 => { s with currentHorizontalBeltState := .standby }
    | 3, 2 => { s with currentHorizontalBeltState := .left }
    | 3, 3 => { s with currentHorizontalBeltState := .right }
    | _, _ => s
  else s

/-- The acquisition motors and the horizontal belt are commanded to stand. -/
def Still (s : BallAcqState) : Prop :=
  s.acqMotorLeft = 0 ∧ s.acqMotorRight = 0 ∧ s.horizontalBeltMotor = 0

/-- The state machine keeps everything still. -/
def Idle (s : BallAcqState) : Prop :=
  (s.currentAcqStatus = .standby ∨
      (s.currentAcqStatus = .shooting ∧ s.currentBeltState = .standby)) ∧
    s.currentHorizontalBeltState = .standby

instance (s : BallAcqState) : Decidable (Idle s) := by unfold Idle; infer_instance

section Autonomous

variable {r : BallAcqReading} {s : BallAcqState}

theorem setAcqState_autonomous (he : r.mode.isEnabled = true)
    (ha : r.mode.isAutonomous = true) : setAcqState r s = s := by
  have hd : r.mode.isDisabled = false := by
    simp [Mode.isDisabled, show r.mode.enabled = true from he]
  rw [setAcqState, hd, Mode.not_operatorControl_of_autonomous ha]
  rfl

/-- In enabled autonomous an idle acquisition stands still and stays idle. -/
theorem execute_idle (he : r.mode.isEnabled = true) (ha : r.mode.isAutonomous = true)
    (h : Idle s) : Idle (execute r s) ∧ Still (execute r s) := by
  obtain ⟨hacq, hbelt⟩ := h
  unfold execute
  rw [setAcqState_autonomous he ha]
  rcases hacq with hs | ⟨hs, hv⟩
  · simp [runAcq, hs, drive, hbelt, horizontalSpeed, Idle, Still]
  · simp [runAcq, hs, runBelt, hv, drive, hbelt, horizontalSpeed, Idle, Still]

/-- The acquisition motors of a busy acquisition run. -/
theorem execute_acq_runs (he : r.mode.isEnabled = true) (ha : r.mode.isAutonomous = true)
    (h : ¬ (s.currentAcqStatus = .standby ∨
      (s.currentAcqStatus = .shooting ∧ s.currentBeltState = .standby))) :
    (execute r s).acqMotorLeft ≠ 0 := by
  unfold execute
  rw [setAcqState_autonomous he ha]
  cases hs : s.currentAcqStatus with
  | standby => exact absurd (.inl hs) h
  | forward => simp [runAcq, hs, drive]
  | backward => simp [runAcq, hs, drive]
  | shooting =>
    cases hb : s.currentBeltState with
    | standby => exact absurd (.inr ⟨hs, hb⟩) h
    | forward => simp [runAcq, hs, runBelt, hb, drive]
    | forwardWait => simp [runAcq, hs, runBelt, hb, drive]
    | reverse => simp [runAcq, hs, runBelt, hb, drive]
    | reverseWait => simp [runAcq, hs, runBelt, hb, drive]

/-- A horizontal belt on its way stands for one iteration at most. -/
theorem execute_belt_runs (he : r.mode.isEnabled = true) (ha : r.mode.isAutonomous = true)
    (h : s.currentHorizontalBeltState ≠ .standby) :
    (execute r s).horizontalBeltMotor ≠ 0 ∨
      (execute r (execute r s)).horizontalBeltMotor ≠ 0 := by
  have hbelt : ∀ u, (execute r u).horizontalBeltMotor =
      horizontalSpeed u.currentHorizontalBeltState u.wantedBeltSpeed := by
    intro u
    unfold execute
    rw [setAcqState_autonomous he ha]
    unfold drive runAcq runBelt
    cases u.currentAcqStatus <;> cases u.currentBeltState <;> rfl
  have hkeep : (execute r s).currentHorizontalBeltState = s.currentHorizontalBeltState := by
    unfold execute
    rw [setAcqState_autonomous he ha]
    unfold drive runAcq runBelt
    cases s.currentAcqStatus <;> cases s.currentBeltState <;> rfl
  have hspeed : (execute r s).wantedBeltSpeed = (execute r s).horizontalBeltMotor := rfl
  by_contra hcon
  rw [not_or, not_not, not_not] at hcon
  obtain ⟨h1, h2⟩ := hcon
  rw [hbelt, hkeep, hspeed, h1] at h2
  cases hb : s.currentHorizontalBeltState with
  | standby => exact h hb
  | left => norm_num [hb, horizontalSpeed, BELT_RAMP] at h2
  | right => norm_num [hb, horizontalSpeed, BELT_RAMP] at h2

end Autonomous

end SparxRobot.BallAcq
