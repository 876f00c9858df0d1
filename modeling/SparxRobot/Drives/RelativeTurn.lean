import SparxRobot.Drives.Turn

/-! Turns by an angle. A turn to an angle adds the heading it starts at; a turn to the lift
takes the camera's angle for a heading, so that the two agree at heading zero alone. -/
namespace SparxRobot.Drives
open Machine

variable {R : Type*} [Field R] [LinearOrder R] [FloorRing R] [JavaMath R]

/-- Every iteration of a turn steers to the heading, up to whole turns of `period`. -/
def SteersTo (period heading : R) (T : List (DrivesMoment R)) : Prop :=
  ∀ m ∈ T, m.pre.currentDriveState = .autoTurn →
    m.post.angleOffset ≡ heading - m.post.currentAngle [PMOD period]

/-- The wheels get the same commands, and a turn ends in both or in neither. -/
structure SameTurn (m m' : DrivesMoment R) : Prop where
  rightWantedSpeed : m.post.rightWantedSpeed = m'.post.rightWantedSpeed
  leftWantedSpeed : m.post.leftWantedSpeed = m'.post.leftWantedSpeed
  currentDriveState : m.post.currentDriveState = m'.post.currentDriveState

section Steering

variable {s : DrivesState R}

theorem execute_angleOffset (r : DrivesReading R) (hstate : s.currentDriveState = .autoTurn) :
    (execute r s).angleOffset =
      Java.IEEEremainder (s.wantedAngle - (sense r s).currentAngle) 360 := by
  have hoffset : (execute r s).angleOffset = turnOffset (sense r s) := by
    rw [execute_eq, turnOffset, ← runState_turn r hstate]
  rw [hoffset, turnOffset_eq]
  rfl

/-- A turn steers to its wanted angle to its end. -/
theorem steersTo_wantedAngle (rs : List (DrivesReading R)) : ∀ s : DrivesState R,
    SteersTo 360 s.wantedAngle (iterations s rs) := by
  induction rs with
  | nil => exact fun s m hm => by simp [iterations, trace] at hm
  | cons r rs ih =>
    intro s m hm hstate
    rcases List.mem_cons.mp hm with rfl | hm
    · have hturn : s.currentDriveState = .autoTurn := hstate
      have hsensed := (execute_keeps r (s := s)).currentAngle
      change (execute r s).angleOffset ≡ s.wantedAngle - (execute r s).currentAngle [PMOD 360]
      rw [execute_angleOffset r hturn, hsensed]
      exact Java.IEEEremainder_modEq _ _
    · have hkept : (execute r s).wantedAngle = s.wantedAngle :=
        (execute_keeps r (s := s)).wantedAngle
      exact hkept ▸ ih (execute r s) m hm hstate

/-- The first iteration of a turn puts `autoReady` down whatever it was. -/
theorem execute_turn_autoReady (r : DrivesReading R) (hstate : s.currentDriveState = .autoTurn)
    (b : Bool) : execute r { s with autoReady := b } = execute r s := by
  have hrun : runState r (sense r { s with autoReady := b }) = runState r (sense r s) := by
    rw [runState_turn r hstate, runState_turn r (s := { s with autoReady := b }) hstate]
    rfl
  simp only [execute, hrun]
  rfl

omit [FloorRing R] [JavaMath R] in
theorem autoTurnToAngle_of_done (angle speed : R) (hdone : isAutoDone s = true) :
    (autoTurnToAngle angle speed s).1 =
      { s with
        turnDone := false
        autoReady := false
        wantedAngle := s.currentAngle + angle
        wantedSpeed := speed
        currentDriveState := .autoTurn } := by
  simp [autoTurnToAngle, hdone]

omit [FloorRing R] [JavaMath R] in
theorem autoTurnLift_of_done (angleToLift speed : R) (hdone : isAutoDone s = true) :
    (autoTurnLift angleToLift speed s).1 =
      { s with
        turnDone := false
        wantedAngle := angleToLift
        wantedSpeed := speed
        currentDriveState := .autoTurn } := by
  simp [autoTurnLift, hdone]

end Steering

section Heading

variable [IsStrictOrderedRing R] {s : DrivesState R}

theorem abs_currentAngle_step (e : DrivesEvent R) (h : |s.currentAngle| < 360) :
    |(drivesStep s e).1.currentAngle| < 360 := by
  cases e with
  | execute r =>
    have hangle : (execute r s).currentAngle = (sense r s).currentAngle :=
      (execute_keeps r).currentAngle
    change |(execute r s).currentAngle| < 360
    rw [hangle]
    exact Java.abs_fmod_lt (by norm_num) _
  | command c =>
    have hkept : (issue c s).1.currentAngle = s.currentAngle := by rw [issue_eq]
    exact hkept ▸ h
  | stopDrives =>
    have hkept : (stopDrives s).1.currentAngle = s.currentAngle := by
      unfold stopDrives
      extract_lets
      split <;> rfl
    exact hkept ▸ h
  | abortAuto | setStartingCoordinate => exact h

/-- The heading is kept within one turn to either side. -/
theorem abs_currentAngle_lt (hreach : Reachable s) : |s.currentAngle| < 360 := by
  have hstep : ∀ (s : DrivesState R) e, |s.currentAngle| < 360 → True →
      |(drivesStep s e).1.currentAngle| < 360 := fun s e h _ => abs_currentAngle_step e h
  obtain ⟨past, rfl⟩ := hreach
  exact (invariant_of_step hstep (by simp) (by simp)).2

theorem currentAngle_eq_zero (hreach : Reachable s) (h : s.currentAngle ≡ 0 [PMOD 360]) :
    s.currentAngle = 0 := by
  have hlt := abs_currentAngle_lt hreach
  refine Java.eq_of_modEq_of_near h ?_
  rwa [zero_sub, abs_neg]

end Heading

section Agreement

variable {s : DrivesState ℝ}

/-- The two commands are told apart by the first iteration after them unless the heading is
zero: they steer a heading apart. -/
theorem lift_steers_iff (hreach : Reachable s) (hdone : isAutoDone s = true) (a speed : ℝ) :
    (∀ rs, SteersTo 360 (s.currentAngle + a) (iterations (autoTurnLift a speed s).1 rs)) ↔
      s.currentAngle = 0 := by
  constructor
  · intro hsteers
    have hlift := autoTurnLift_of_done a speed hdone
    have hfirst := hsteers [{}] _ List.mem_cons_self (congrArg DrivesState.currentDriveState hlift)
    have hown := steersTo_wantedAngle [{}] (autoTurnLift a speed s).1 _ List.mem_cons_self
      (congrArg DrivesState.currentDriveState hlift)
    have hwanted : (autoTurnLift a speed s).1.wantedAngle = a :=
      congrArg DrivesState.wantedAngle hlift
    rw [hwanted] at hown
    refine currentAngle_eq_zero hreach ?_
    have hsame := hfirst.symm.trans hown
    obtain ⟨k, hk⟩ := AddCommGroup.modEq_iff_zsmul'.mp hsame
    exact AddCommGroup.modEq_iff_zsmul'.mpr ⟨k, by linarith⟩
  · intro hzero rs
    have hwanted : (autoTurnLift a speed s).1.wantedAngle = s.currentAngle + a := by
      rw [hzero, zero_add, autoTurnLift_of_done a speed hdone]
    exact hwanted ▸ steersTo_wantedAngle rs _

/-- A reading that finds the robot at the lift's angle, its wheels fast enough to end the turn
there but not half as far off as the robot was turned. -/
noncomputable def atLift (a : ℝ) (s : DrivesState ℝ) : DrivesReading ℝ :=
  { angle := a + s.gyroZero
    rightSpeed := 6.0 + (|Java.IEEEremainder s.currentAngle 360.0| +
      |Java.IEEEremainder s.currentAngle 360.0|) }

/-- At such a reading the turn to the lift ends, and the turn by the angle does not. -/
theorem atLift_tells_apart (hreach : Reachable s) (hdone : isAutoDone s = true)
    (hne : s.currentAngle ≠ 0) (a speed : ℝ) :
    Coasts (sense (atLift a s) (autoTurnLift a speed s).1) ∧
      ¬ Coasts (sense (atLift a s) (autoTurnToAngle a speed s).1) := by
  have h360 : (360.0 : ℝ) = 360 := by norm_num
  have hsix : (6.0 : ℝ) = 6 := by norm_num
  have hpos : 0 < |Java.IEEEremainder s.currentAngle 360| := by
    rw [abs_pos]
    intro hzero
    have hmod := Java.IEEEremainder_modEq s.currentAngle 360
    rw [hzero] at hmod
    exact hne (currentAngle_eq_zero hreach hmod.symm)
  have hangle : Java.fmod (a + s.gyroZero - s.gyroZero) 360 ≡ a [PMOD 360] := by
    rw [add_sub_cancel_right]
    exact Java.fmod_modEq a 360
  rw [autoTurnLift_of_done a speed hdone, autoTurnToAngle_of_done a speed hdone]
  rw [coasts_iff, coasts_iff, turnOffset_eq, turnOffset_eq]
  simp only [sense, atLift, getAdjustedAngle, h360, hsix, sub_zero]
  generalize Java.fmod (a + s.gyroZero - s.gyroZero) 360 = angle at hangle ⊢
  obtain ⟨k, hk⟩ := AddCommGroup.modEq_iff_zsmul'.mp hangle
  have hlift : Java.IEEEremainder (a - angle) 360 = 0 := by
    refine Java.IEEEremainder_eq ?_ (by norm_num)
    exact AddCommGroup.modEq_iff_zsmul'.mpr ⟨k, by rw [sub_zero, hk]⟩
  have hturn : |Java.IEEEremainder (s.currentAngle + a - angle) 360| =
      |Java.IEEEremainder s.currentAngle 360| := by
    refine Java.abs_IEEEremainder_congr (by norm_num) ?_
    refine AddCommGroup.modEq_iff_zsmul'.mpr ⟨-k, ?_⟩
    rw [neg_zsmul, ← hk]
    ring
  rw [hlift, hturn, abs_zero, abs_of_pos (by positivity)]
  constructor <;> linarith

/-- Turns that run alike on all readings start at heading zero. -/
theorem heading_zero_of_alike (hreach : Reachable s) (hdone : isAutoDone s = true) {a speed : ℝ}
    (halike : ∀ rs, List.Forall₂ SameTurn (iterations (autoTurnToAngle a speed s).1 rs)
      (iterations (autoTurnLift a speed s).1 rs)) : s.currentAngle = 0 := by
  by_contra hne
  obtain ⟨hends, hgoes⟩ := atLift_tells_apart hreach hdone hne a speed
  obtain ⟨hsame, -⟩ := List.forall₂_cons.mp (halike [atLift a s])
  have hturn : (autoTurnToAngle a speed s).1.currentDriveState = .autoTurn :=
    congrArg DrivesState.currentDriveState (autoTurnToAngle_of_done a speed hdone)
  have hturn' : (autoTurnLift a speed s).1.currentDriveState = .autoTurn :=
    congrArg DrivesState.currentDriveState (autoTurnLift_of_done a speed hdone)
  have hstate : (execute (atLift a s) (autoTurnToAngle a speed s).1).currentDriveState =
    (execute (atLift a s) (autoTurnLift a speed s).1).currentDriveState := hsame.currentDriveState
  rw [execute_currentDriveState, execute_currentDriveState, runState_turn _ hturn,
    runState_turn _ hturn', turn_of_coasts hends, turn_of_not_coasts hgoes] at hstate
  have hstandby : (sense (atLift a s) (autoTurnToAngle a speed s).1).currentDriveState =
    .standby := hstate
  rw [sense_currentDriveState, hturn] at hstandby
  exact DriveState.noConfusion hstandby

/-- At heading zero the two turns differ in `autoReady` alone, which an iteration puts down. -/
theorem alike_of_heading_zero (hdone : isAutoDone s = true) (hzero : s.currentAngle = 0)
    (a speed : ℝ) (rs : List (DrivesReading ℝ)) :
    List.Forall₂ SameTurn (iterations (autoTurnToAngle a speed s).1 rs)
      (iterations (autoTurnLift a speed s).1 rs) := by
  have hlift := autoTurnLift_of_done a speed hdone
  have hturn : (autoTurnLift a speed s).1.currentDriveState = .autoTurn :=
    congrArg DrivesState.currentDriveState hlift
  have hsame : (autoTurnToAngle a speed s).1 =
      { (autoTurnLift a speed s).1 with autoReady := false } := by
    rw [hlift, autoTurnToAngle_of_done a speed hdone, hzero, zero_add]
  rw [hsame]
  cases rs with
  | nil => exact .nil
  | cons r rs =>
    have hnext := execute_turn_autoReady r hturn false
    refine .cons ⟨?_, ?_, ?_⟩ ?_
    · exact congrArg DrivesState.rightWantedSpeed hnext
    · exact congrArg DrivesState.leftWantedSpeed hnext
    · exact congrArg DrivesState.currentDriveState hnext
    · have htail : iterations (execute r { (autoTurnLift a speed s).1 with autoReady := false })
          rs = iterations (execute r (autoTurnLift a speed s).1) rs := by rw [hnext]
      change List.Forall₂ SameTurn (iterations (execute r _) rs) (iterations (execute r _) rs)
      rw [htail, List.forall₂_same]
      exact fun m _ => ⟨rfl, rfl, rfl⟩

/-- A turn by an angle steers to the angle from the heading it starts at. A turn to the lift
with the same angle does so, and runs alike, exactly when that heading is zero. -/
theorem relative_turns_agree_iff (hreach : Reachable s) (hdone : isAutoDone s = true)
    (a speed : ℝ) :
    (∀ rs, SteersTo 360 (s.currentAngle + a) (iterations (autoTurnToAngle a speed s).1 rs)) ∧
    ((∀ rs, SteersTo 360 (s.currentAngle + a) (iterations (autoTurnLift a speed s).1 rs)) ↔
      s.currentAngle = 0) ∧
    ((∀ rs, List.Forall₂ SameTurn (iterations (autoTurnToAngle a speed s).1 rs)
        (iterations (autoTurnLift a speed s).1 rs)) ↔ s.currentAngle = 0) := by
  refine ⟨fun rs => ?_, lift_steers_iff hreach hdone a speed,
    fun halike => heading_zero_of_alike hreach hdone halike,
    fun hzero => alike_of_heading_zero hdone hzero a speed⟩
  have hwanted : (autoTurnToAngle a speed s).1.wantedAngle = s.currentAngle + a :=
    congrArg DrivesState.wantedAngle (autoTurnToAngle_of_done a speed hdone)
  exact hwanted ▸ steersTo_wantedAngle rs _

/-- At power-on the two turns run alike. -/
theorem poweredOn_turns_agree :
    List.Forall₂ SameTurn (iterations (autoTurnToAngle (10 : ℝ) 30 {}).1 [{}, {}])
      (iterations (autoTurnLift (10 : ℝ) 30 {}).1 [{}, {}]) :=
  (relative_turns_agree_iff ⟨[], rfl⟩ rfl 10 30).2.2.mpr rfl [{}, {}]

/-- The robot has been turned to heading ninety by hand. -/
noncomputable def facingRight : DrivesState ℝ := execute { angle := 90.0 } {}

theorem facingRight_turns_elsewhere : ¬ ∀ s : DrivesState ℝ, Reachable s → isAutoDone s = true →
    ∀ a speed rs, SteersTo 360 (s.currentAngle + a) (iterations (autoTurnToAngle a speed s).1 rs) ∧
      SteersTo 360 (s.currentAngle + a) (iterations (autoTurnLift a speed s).1 rs) ∧
      List.Forall₂ SameTurn (iterations (autoTurnToAngle a speed s).1 rs)
        (iterations (autoTurnLift a speed s).1 rs) := by
  intro hall
  have hreach : Reachable facingRight := ⟨[.execute { angle := 90.0 }], rfl⟩
  have hdone : isAutoDone facingRight = true := execute_done trivial rfl
  have hzero : facingRight.currentAngle = 0 :=
    (lift_steers_iff hreach hdone 10 30).mp fun rs => (hall _ hreach hdone 10 30 rs).2.1
  have hangle : facingRight.currentAngle = Java.fmod (90.0 - 0) 360 :=
    (execute_keeps (R := ℝ) { angle := 90.0 }).currentAngle
  have hquarter : Java.fmod (90.0 - 0 : ℝ) 360 = 90 := by
    norm_num [Java.fmod, Java.trunc]
  rw [hzero, hquarter] at hangle
  norm_num at hangle

end Agreement

end SparxRobot.Drives
