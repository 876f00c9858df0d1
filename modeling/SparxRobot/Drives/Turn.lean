import SparxRobot.Drives.Command
import SparxRobot.Java.Remainder

/-! Turns. An iteration takes the short way to the wanted angle, and whole turns in either
angle change nothing. Whether it ends the turn depends on how fast the wheels turn. -/
namespace SparxRobot.Drives
open Machine

variable {R : Type*} [Field R] [LinearOrder R]

section Iteration

/-- The turn is over. -/
structure TurnEnded (t : DrivesState R) : Prop where
  rightWantedSpeed : t.rightWantedSpeed = 0
  leftWantedSpeed : t.leftWantedSpeed = 0
  turnDone : t.turnDone = true
  autoReady : t.autoReady = true
  currentDriveState : t.currentDriveState = .standby

/-- The wheels are wanted to turn against each other at speed `m`. -/
structure Spins (m : R) (clockwise : Prop) (t : DrivesState R) : Prop where
  opposite : t.rightWantedSpeed = -t.leftWantedSpeed
  magnitude : |t.leftWantedSpeed| = m
  direction : 0 < t.leftWantedSpeed ↔ clockwise

/-- The same with some periods more on the wanted and on the current angle. -/
def DrivesState.wound (period : R) (k l : ℤ) (s : DrivesState R) : DrivesState R :=
  { s with
    wantedAngle := s.wantedAngle + k • period
    currentAngle := s.currentAngle + l • period }

variable [FloorRing R] (s : DrivesState R)

/-- What an iteration takes for the way to the wanted angle. -/
def turnOffset : R := (turn s).angleOffset

/-- What it makes of the wanted speed. -/
def cappedSpeed : R := (turn s).wantedSpeed

/-- The iteration leaves the rest of the way to the wheels' coasting. -/
def Coasts : Prop := (turn s).autoReady = true

theorem turnOffset_eq : turnOffset s = Java.IEEEremainder (s.wantedAngle - s.currentAngle) 360 := by
  unfold turnOffset turn
  extract_lets
  (repeat' split) <;> rfl

variable {s}

theorem coasts_iff : Coasts s ↔
    |turnOffset s| - (|s.rightCurrentSpeed - s.leftCurrentSpeed| / 2 - 9) * 0.5 < 3 := by
  rw [turnOffset_eq]
  unfold Coasts turn
  extract_lets
  split <;> rename_i h
  · simpa using h
  · split <;> simpa using h

theorem turn_of_coasts (h : Coasts s) : turn s =
    { s with
      angleOffset := turnOffset s
      rightWantedSpeed := 0
      leftWantedSpeed := 0
      currentDriveState := .standby
      turnDone := true
      autoReady := true } := by
  have hclose := coasts_iff.mp h
  rw [turnOffset_eq] at hclose ⊢
  unfold turn
  extract_lets
  exact if_pos hclose

theorem turn_of_not_coasts (h : ¬ Coasts s) : turn s =
    { s with
      angleOffset := turnOffset s
      autoReady := false
      wantedSpeed := cappedSpeed s
      rightWantedSpeed := if turnOffset s > 0 then -cappedSpeed s else cappedSpeed s
      leftWantedSpeed := if turnOffset s > 0 then cappedSpeed s else -cappedSpeed s } := by
  have hfar := mt coasts_iff.mpr h
  unfold cappedSpeed
  rw [turnOffset_eq] at hfar ⊢
  unfold turn
  extract_lets angleOffset
  rw [if_neg hfar]
  by_cases hoffset : Java.IEEEremainder (s.wantedAngle - s.currentAngle) 360 > 0
  · rw [if_pos (show angleOffset > 0 from hoffset), if_pos hoffset, if_pos hoffset]
  · rw [if_neg (show ¬ angleOffset > 0 from hoffset), if_neg hoffset, if_neg hoffset]

theorem cappedSpeed_eq_min (h : ¬ Coasts s) :
    cappedSpeed s = min s.wantedSpeed (12 + |turnOffset s| / 2) := by
  have hfar := mt coasts_iff.mpr h
  unfold cappedSpeed
  rw [turnOffset_eq] at hfar ⊢
  unfold turn
  extract_lets angleOffset averageTurningSpeed t wantedSpeed
  rw [if_neg hfar, min_comm, min_def_lt, apply_ite DrivesState.wantedSpeed, ite_self]

theorem turnEnded_iff (hstate : s.currentDriveState = .autoTurn) :
    TurnEnded (turn s) ↔ Coasts s := by
  constructor
  · intro hended
    by_contra h
    have hstandby := hended.currentDriveState
    rw [turn_of_not_coasts h] at hstandby
    simp [hstate] at hstandby
  · intro h
    rw [turn_of_coasts h]
    exact ⟨rfl, rfl, rfl, rfl, rfl⟩

variable [IsStrictOrderedRing R]

theorem spins_of_not_coasts (hspeed : 0 < s.wantedSpeed) (h : ¬ Coasts s) :
    0 < cappedSpeed s ∧ Spins (cappedSpeed s) (0 < turnOffset s) (turn s) := by
  have hpos : 0 < cappedSpeed s := by
    rw [cappedSpeed_eq_min h, lt_min_iff]
    exact ⟨hspeed, by positivity⟩
  rw [turn_of_not_coasts h]
  refine ⟨hpos, ?_⟩
  by_cases hoffset : turnOffset s > 0
  · exact ⟨by simp [hoffset], by simp [hoffset, abs_of_pos hpos], by simp [hoffset, hpos]⟩
  · exact ⟨by simp [hoffset], by simp [hoffset, abs_of_pos hpos], by simp [hoffset, hpos.le]⟩

theorem abs_turnOffset_lt (hhalf : ¬ s.wantedAngle - s.currentAngle ≡ 180 [PMOD 360]) :
    |turnOffset s| < 360 / 2 := by
  rw [turnOffset_eq]
  refine lt_of_le_of_ne (Java.abs_IEEEremainder_le (by norm_num) _) fun heq => hhalf ?_
  have htie := (Java.abs_IEEEremainder_eq_half (by norm_num)).mp heq
  norm_num at htie
  exact htie

/-- Whole turns in either angle leave what an iteration does as it is. -/
theorem turn_wound (hhalf : ¬ s.wantedAngle - s.currentAngle ≡ 180 [PMOD 360]) (k l : ℤ) :
    turn (s.wound 360 k l) = (turn s).wound 360 k l := by
  have hoffset : turnOffset (s.wound 360 k l) = turnOffset s := by
    have hlt := abs_turnOffset_lt hhalf
    rw [turnOffset_eq] at hlt
    rw [turnOffset_eq, turnOffset_eq]
    refine Java.IEEEremainder_congr ?_ hlt
    refine AddCommGroup.modEq_iff_zsmul'.mpr ⟨k - l, ?_⟩
    rw [sub_zsmul, DrivesState.wound]
    ring
  have hcoasts : Coasts (s.wound 360 k l) ↔ Coasts s := by
    rw [coasts_iff, coasts_iff, hoffset]
    rfl
  by_cases h : Coasts s
  · rw [turn_of_coasts h, turn_of_coasts (hcoasts.mpr h), hoffset]
    rfl
  · have h' := mt hcoasts.mp h
    have hspeed : cappedSpeed (s.wound 360 k l) = cappedSpeed s := by
      rw [cappedSpeed_eq_min h, cappedSpeed_eq_min h', hoffset]
      rfl
    rw [turn_of_not_coasts h, turn_of_not_coasts h', hoffset, hspeed]
    rfl

end Iteration

section Run

variable [FloorRing R] [JavaMath R] [IsStrictOrderedRing R] {s : DrivesState R}

omit [IsStrictOrderedRing R] in
theorem runState_turn (r : DrivesReading R) (hstate : s.currentDriveState = .autoTurn) :
    runState r (sense r s) = turn (sense r s) := by
  rw [runState, sense_currentDriveState, hstate]

/-- An iteration spins the wheels no faster than the turn's speed so far, and if it does not
end the turn it spins them at the turn's speed. -/
theorem execute_spins (r : DrivesReading R) (hstate : s.currentDriveState = .autoTurn)
    (hspeed : 0 < s.wantedSpeed) :
    |(execute r s).leftWantedSpeed| ≤ s.wantedSpeed ∧
      ((execute r s).currentDriveState = .autoTurn →
        0 < (execute r s).wantedSpeed ∧
          |(execute r s).leftWantedSpeed| = (execute r s).wantedSpeed) := by
  rw [execute_leftWantedSpeed, execute_currentDriveState, execute_wantedSpeed,
    runState_turn r hstate]
  have hsensed : 0 < (sense r s).wantedSpeed := hspeed
  by_cases h : Coasts (sense r s)
  · rw [turn_of_coasts h]
    exact ⟨by simpa using hspeed.le, fun hturn => by simp at hturn⟩
  · obtain ⟨hpos, hspins⟩ := spins_of_not_coasts hsensed h
    have hcap : cappedSpeed (sense r s) ≤ s.wantedSpeed := by
      rw [cappedSpeed_eq_min h]
      exact min_le_left _ _
    rw [hspins.magnitude]
    exact ⟨hcap, fun _ => ⟨hpos, rfl⟩⟩

/-- Over the iterations of a turn the wheels spin ever more slowly. -/
theorem spins_descend (rs : List (DrivesReading R)) : ∀ {s : DrivesState R}, 0 < s.wantedSpeed →
    (∀ m ∈ trace drivesStep s (rs.map .execute), m.pre.currentDriveState = .autoTurn) →
    (∀ m ∈ trace drivesStep s (rs.map .execute), |m.post.leftWantedSpeed| ≤ s.wantedSpeed) ∧
      (trace drivesStep s (rs.map .execute)).Pairwise
        fun m m' => |m'.post.leftWantedSpeed| ≤ |m.post.leftWantedSpeed| := by
  induction rs with
  | nil => simp [trace]
  | cons r rs ih =>
    intro s hspeed hturn
    rw [List.map_cons, trace, List.forall_mem_cons] at hturn
    obtain ⟨hfirst, hspins⟩ := execute_spins r hturn.1 hspeed
    rw [List.map_cons, trace, List.forall_mem_cons, List.pairwise_cons]
    cases rs with
    | nil => exact ⟨⟨hfirst, by simp [trace]⟩, by simp [trace], by simp [trace]⟩
    | cons r' rs =>
      have hnext : (execute r s).currentDriveState = .autoTurn := hturn.2 _ List.mem_cons_self
      obtain ⟨hpos, hlast⟩ := hspins hnext
      obtain ⟨hbound, hpairs⟩ := ih hpos hturn.2
      have hpost : |(moment drivesStep s (.execute r)).post.leftWantedSpeed| =
          (execute r s).wantedSpeed := hlast
      rw [hpost]
      refine ⟨⟨hlast ▸ hfirst, fun m hm => (hbound m hm).trans ?_⟩, hbound, hpairs⟩
      exact hlast ▸ hfirst

/-- Unless the angles are half a turn apart, an iteration that does not end the turn takes the
short way, not faster than before and slower near the end; whole turns in either angle change
nothing; and a turn never speeds up. -/
theorem turn_takes_short_way {s : DrivesState ℝ} (hstate : s.currentDriveState = .autoTurn)
    (hspeed : 0 < s.wantedSpeed) (hhalf : ¬ s.wantedAngle - s.currentAngle ≡ 180 [PMOD 360]) :
    (¬ TurnEnded (turn s) → ∃ offset m, offset ≡ s.wantedAngle - s.currentAngle [PMOD 360] ∧
      |offset| < 180 ∧ Spins m (0 < offset) (turn s) ∧ 0 < m ∧
      m ≤ min s.wantedSpeed (12 + |offset| / 2)) ∧
    (∀ k l : ℤ, turn (s.wound 360 k l) = (turn s).wound 360 k l) ∧
    ∀ rs : List (DrivesReading ℝ),
      (∀ m ∈ trace drivesStep s (rs.map .execute), m.pre.currentDriveState = .autoTurn) →
      (trace drivesStep s (rs.map .execute)).Pairwise
        fun m m' => |m'.post.leftWantedSpeed| ≤ |m.post.leftWantedSpeed| := by
  refine ⟨fun hgoes => ?_, turn_wound hhalf,
    fun rs hturn => (spins_descend rs hspeed hturn).2⟩
  have h : ¬ Coasts s := mt (turnEnded_iff hstate).mpr hgoes
  obtain ⟨hpos, hspins⟩ := spins_of_not_coasts hspeed h
  have hmod : turnOffset s ≡ s.wantedAngle - s.currentAngle [PMOD 360] := by
    rw [turnOffset_eq]
    exact Java.IEEEremainder_modEq _ _
  have hlt : |turnOffset s| < 180 := by
    have hhalfTurn := abs_turnOffset_lt hhalf
    norm_num at hhalfTurn
    exact hhalfTurn
  exact ⟨turnOffset s, cappedSpeed s, hmod, hlt, hspins, hpos, (cappedSpeed_eq_min h).le⟩

/-- A quarter turn that is about to start. -/
def quarterTurn (R : Type*) [Field R] [LinearOrder R] : DrivesState R :=
  { currentDriveState := .autoTurn, wantedAngle := 90.0, wantedSpeed := 30.0 }

theorem quarterTurn_short_way : ∃ offset m,
    offset ≡ (quarterTurn ℝ).wantedAngle - (quarterTurn ℝ).currentAngle [PMOD 360] ∧
      |offset| < 180 ∧ Spins m (0 < offset) (turn (quarterTurn ℝ)) ∧ 0 < m ∧
      m ≤ min (quarterTurn ℝ).wantedSpeed (12 + |offset| / 2) := by
  have hoffset : turnOffset (quarterTurn ℝ) = 90 := by
    rw [turnOffset_eq]
    refine Java.IEEEremainder_eq ?_ (by norm_num)
    norm_num [quarterTurn]
  have hhalf : ¬ (quarterTurn ℝ).wantedAngle - (quarterTurn ℝ).currentAngle ≡ 180 [PMOD 360] := by
    intro htie
    have heq := (Java.abs_IEEEremainder_eq_half (by norm_num)).mpr
      (show _ ≡ (360 : ℝ) / 2 [PMOD 360] by norm_num; exact htie)
    rw [← turnOffset_eq, hoffset] at heq
    norm_num at heq
  have hgoes : ¬ TurnEnded (turn (quarterTurn ℝ)) := by
    rw [turnEnded_iff rfl, coasts_iff, hoffset]
    norm_num [quarterTurn]
  exact (turn_takes_short_way (s := quarterTurn ℝ) rfl (by norm_num [quarterTurn]) hhalf).1 hgoes

/-- On target an iteration ends the turn exactly when the wheels turn against each other fast
enough, which standing wheels never do. -/
theorem on_target_turn_ends_iff {s : DrivesState ℝ} (hstate : s.currentDriveState = .autoTurn) :
    (|Java.IEEEremainder (s.wantedAngle - s.currentAngle) 360| < 3 → TurnEnded (turn s)) ↔
      3 ≤ |Java.IEEEremainder (s.wantedAngle - s.currentAngle) 360| ∨
        6 + 4 * |Java.IEEEremainder (s.wantedAngle - s.currentAngle) 360| <
          |s.rightCurrentSpeed - s.leftCurrentSpeed| := by
  rw [turnEnded_iff hstate, coasts_iff, ← turnOffset_eq]
  norm_num
  constructor
  · intro hends
    by_contra hnot
    push Not at hnot
    have hcoasts := hends hnot.1
    linarith [hnot.2]
  · rintro (hfar | hfast) hnear
    · linarith
    · linarith

/-- Two degrees from its end, the wheels still turning fast. -/
def almostThere (R : Type*) [Field R] [LinearOrder R] : DrivesState R :=
  { currentDriveState := .autoTurn, wantedAngle := 2.0, leftCurrentSpeed := 20.0 }

theorem almostThere_ends : TurnEnded (turn (almostThere ℝ)) := by
  have hoffset : Java.IEEEremainder ((almostThere ℝ).wantedAngle - (almostThere ℝ).currentAngle)
      360 = 2 := by
    refine Java.IEEEremainder_eq ?_ (by norm_num)
    norm_num [almostThere]
  refine (on_target_turn_ends_iff (s := almostThere ℝ) rfl).mpr (.inr ?_) ?_
  · rw [hoffset]
    norm_num [almostThere]
  · rw [hoffset]
    norm_num

/-- A turn from standing to the heading the robot has spins it. -/
theorem stationary_turn_spins {r : DrivesReading ℝ} {s : DrivesState ℝ}
    (hstate : s.currentDriveState = .autoTurn) (hspeed : 0 < s.wantedSpeed)
    (hright : r.rightSpeed = 0) (hleft : r.leftSpeed = 0)
    (hangle : (sense r s).currentAngle = s.wantedAngle) :
    ¬ TurnEnded (execute r s) ∧ (execute r s).leftWantedSpeed ≠ 0 := by
  have hoffset : turnOffset (sense r s) = 0 := by
    rw [turnOffset_eq, hangle]
    exact Java.IEEEremainder_eq (by simp [sense]) (by norm_num)
  have h : ¬ Coasts (sense r s) := by
    rw [coasts_iff, hoffset]
    norm_num [sense, hright, hleft]
  have hmoves : (execute r s).leftWantedSpeed ≠ 0 := by
    obtain ⟨hpos, hspins⟩ := spins_of_not_coasts (s := sense r s) hspeed h
    rw [execute_leftWantedSpeed, runState_turn r hstate, ← abs_pos, hspins.magnitude]
    exact hpos
  exact ⟨fun hended => hmoves hended.leftWantedSpeed, hmoves⟩

/-- A turn to heading zero, asked for at heading zero. -/
def turnToHere (R : Type*) [Field R] [LinearOrder R] : DrivesState R :=
  (autoTurnToHeading 0 30.0 {}).1

theorem turnToHere_goes_on : ¬ ∀ s : DrivesState ℝ, Reachable s →
    s.currentDriveState = .autoTurn → ∀ r,
      |Java.IEEEremainder ((sense r s).wantedAngle - (sense r s).currentAngle) 360| < 3 →
        TurnEnded (execute r s) := by
  intro hall
  have hreach : Reachable (turnToHere ℝ) := ⟨[.command (.autoTurnToHeading 0 30.0)], rfl⟩
  have hangle : (sense {} (turnToHere ℝ)).currentAngle = (turnToHere ℝ).wantedAngle := by
    simp [sense, getAdjustedAngle, turnToHere, autoTurnToHeading, isAutoDone, Java.fmod,
      Java.trunc]
  have hon : |Java.IEEEremainder ((sense {} (turnToHere ℝ)).wantedAngle -
      (sense {} (turnToHere ℝ)).currentAngle) 360| < 3 := by
    rw [hangle, Java.IEEEremainder_of_abs_lt] <;> simp [sense]
  have hspeed : (0 : ℝ) < (turnToHere ℝ).wantedSpeed := by
    norm_num [turnToHere, autoTurnToHeading, isAutoDone]
  exact (stationary_turn_spins (r := {}) rfl hspeed rfl rfl hangle).1
    (hall (turnToHere ℝ) hreach rfl {} hon)

end Run

end SparxRobot.Drives
