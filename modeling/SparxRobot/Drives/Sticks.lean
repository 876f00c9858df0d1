import SparxRobot.Drives.Diagnostics
import SparxRobot.Drives.Teleop
import SparxRobot.Station.Axes

/-! From the sticks to the motors in teleop: the deadband of the axes, the speed scale there
and back, and the motor's own deadband that is added at the end. -/
namespace SparxRobot.Drives
open Machine Control Controls

variable {R : Type*} [Field R] [LinearOrder R]

def RIGHT_JOY_Y : ℤ := RIGHT_JOY_Y_AXIS
def LEFT_JOY_Y : ℤ := LEFT_JOY_Y_AXIS
def RIGHT_JOY_X : ℤ := RIGHT_JOY_X_AXIS
def LEFT_JOY_X : ℤ := LEFT_JOY_X_AXIS

def JOYSTICK_DEADBAND (R : Type*) [Field R] : R := 0.1

/-- The deadbands `init` sets on the controls object of the drives. -/
def initAxes (R : Type*) [Field R] [LinearOrder R] : AxesData R :=
  final axesStep (axesData R)
    [.setAxisDeadband RIGHT_JOY_Y (JOYSTICK_DEADBAND R),
      .setAxisDeadband LEFT_JOY_Y (JOYSTICK_DEADBAND R),
      .setAxisDeadband RIGHT_JOY_X (JOYSTICK_DEADBAND R),
      .setAxisDeadband LEFT_JOY_X (JOYSTICK_DEADBAND R)]

/-- An iteration whose sticks are the two axes of the joysticks. -/
def DrivesReading.readSticks (j : Joysticks R) (r : DrivesReading R) : DrivesReading R :=
  r.withSticks (getAxis j RIGHT_JOY_Y (initAxes R)) (getAxis j LEFT_JOY_Y (initAxes R))

inductive Side where
  | right | left
  deriving DecidableEq, Repr

namespace Side

def other : Side → Side
  | right => left
  | left => right

/-- The raw value of the side's stick. -/
def stick (j : Joysticks R) : Side → R
  | right => getRawAxis j RIGHT_JOY_Y
  | left => getRawAxis j LEFT_JOY_Y

def motorFront (s : DrivesState R) : Side → R
  | right => s.rightMotorFront
  | left => s.leftMotorFront

def motorBack (s : DrivesState R) : Side → R
  | right => s.rightMotorBack
  | left => s.leftMotorBack

end Side

/-- An iteration in operator control that finds the teleop state and no motor test. -/
structure Driven (r : DrivesReading R) (s : DrivesState R) : Prop where
  operator : r.mode.isOperatorControl = true
  teleop : s.currentDriveState = .teleop
  released : r.backPressed = false

/-- The inversion the iteration drives with. -/
def inverted (r : DrivesReading R) (s : DrivesState R) : Bool := (teleop r s).isInverse

section Map

variable [FloorRing R] [JavaMath R]

/-- The power an iteration commands to a side. -/
def sidePower (j : Joysticks R) (r : DrivesReading R) (s : DrivesState R) (side : Side) : R :=
  side.motorFront (execute (r.readSticks j) s)

/-- What the drivers may rely on: both motors of a side get a power in the range of a motor,
none exactly in the deadband, the opposite one for the opposite stick, less the farther the
stick is pulled, and the negated power of the other side when the drives are inverted. -/
structure StickMap (j : Joysticks R) (r : DrivesReading R) (s : DrivesState R) : Prop where
  both : ∀ side : Side, side.motorBack (execute (r.readSticks j) s) = sidePower j r s side
  range : ∀ side, sidePower j r s side ∈ Set.Icc (-1) 1
  zero : ∀ side, sidePower j r s side = 0 ↔ |side.stick j| ≤ JOYSTICK_DEADBAND R
  odd : ∀ k side, side.stick k = -side.stick j → sidePower k r s side = -sidePower j r s side
  decreasing : ∀ k side, |side.stick k| ≤ 1 → JOYSTICK_DEADBAND R < |side.stick j| →
    JOYSTICK_DEADBAND R < |side.stick k| → side.stick j < side.stick k →
      sidePower k r s side < sidePower j r s side
  inverse : ∀ r' s', Driven r' s' → inverted r' s' = true →
    ∀ side, sidePower j r' s' side = -sidePower j r s side.other

end Map

section Power

variable [IsStrictOrderedRing R] {x y : R}

theorem overDeadband_neg (x : R) : overDeadband (-x) = -overDeadband x := by
  unfold overDeadband
  rcases lt_trichotomy x 0 with hx | rfl | hx
  · rw [if_neg (by linarith), if_pos (by linarith), if_pos hx]
    ring
  · simp
  · rw [if_pos (by linarith), if_neg (by linarith), if_pos hx]
    ring

theorem overDeadband_strictMono : StrictMono (overDeadband (R := R)) := by
  intro x y h
  have hoff : (0 : R) < 0.05 := by norm_num
  unfold overDeadband
  split_ifs <;> linarith

theorem overDeadband_eq_zero_iff : overDeadband x = 0 ↔ x = 0 :=
  overDeadband_strictMono.injective.eq_iff' (by simp [overDeadband])

/-- The motor's deadband leaves the range at the power that is short of it by as much. -/
theorem overDeadband_mem_iff : overDeadband x ∈ Set.Icc (-1) 1 ↔ |x| ≤ 0.95 := by
  have hone : overDeadband (0.95 : R) = 1 := by norm_num [overDeadband]
  have hneg : overDeadband (-0.95 : R) = -1 := by rw [overDeadband_neg, hone]
  rw [Set.mem_Icc, abs_le, ← hneg, ← hone, overDeadband_strictMono.le_iff_le,
    overDeadband_strictMono.le_iff_le]

/-- The power for a raw value of a stick. -/
def stickPower (raw : R) : R := overDeadband (-rescale (JOYSTICK_DEADBAND R) raw)

theorem deadband_nonneg : 0 ≤ JOYSTICK_DEADBAND R := by norm_num [JOYSTICK_DEADBAND]

theorem deadband_lt_one : JOYSTICK_DEADBAND R < 1 := by norm_num [JOYSTICK_DEADBAND]

theorem stickPower_neg (raw : R) : stickPower (-raw) = -stickPower raw := by
  rw [stickPower, rescale_odd deadband_nonneg, overDeadband_neg, stickPower]

theorem stickPower_eq_zero_iff (hx : |x| ≤ 1) :
    stickPower x = 0 ↔ |x| ≤ JOYSTICK_DEADBAND R := by
  rw [stickPower, overDeadband_eq_zero_iff, neg_eq_zero, rescale_eq_zero_iff deadband_nonneg hx]

theorem stickPower_lt (hx : JOYSTICK_DEADBAND R < |x|) (hy : JOYSTICK_DEADBAND R < |y|)
    (h : x < y) : stickPower y < stickPower x :=
  overDeadband_strictMono
    (neg_lt_neg (rescale_lt_rescale deadband_nonneg deadband_lt_one hx hy h))

theorem stickPower_mem_iff : stickPower x ∈ Set.Icc (-1) 1 ↔ |x| ≤ 0.955 := by
  rw [stickPower, overDeadband_mem_iff, abs_neg]
  rcases lt_or_ge (JOYSTICK_DEADBAND R) |x| with hout | hin
  · rw [abs_rescale deadband_nonneg deadband_lt_one hout,
      div_le_iff₀ (sub_pos.mpr deadband_lt_one)]
    unfold JOYSTICK_DEADBAND
    constructor <;> intro h <;> linarith
  · rw [rescale_of_le hin, abs_zero]
    unfold JOYSTICK_DEADBAND at hin
    refine iff_of_true (by norm_num) (hin.trans (by norm_num))

end Power

section Execute

variable [IsStrictOrderedRing R] (j : Joysticks R)

theorem initAxes_deadband : (initAxes R 5).deadband = JOYSTICK_DEADBAND R ∧
    (initAxes R 1).deadband = JOYSTICK_DEADBAND R := by
  have hset : ∀ (axisNumber : ℤ) (a : Fin maxAxes) (t : AxesData R),
      rowOf maxAxes axisNumber = some a →
      (setAxisDeadband axisNumber (JOYSTICK_DEADBAND R) t).1 =
        Function.update t a { t a with deadband := JOYSTICK_DEADBAND R } := by
    intro axisNumber a t ha
    simp only [setAxisDeadband, ha]
    rw [if_pos ⟨deadband_nonneg, deadband_lt_one.le⟩]
  simp only [initAxes, final, axesStep]
  rw [hset _ 0 _ rfl, hset _ 4 _ rfl, hset _ 1 _ rfl, hset _ 5 _ rfl]
  constructor <;> simp

/-- What the drives read from a side's stick. -/
theorem getAxis_init : getAxis j RIGHT_JOY_Y (initAxes R) =
      rescale (JOYSTICK_DEADBAND R) (Side.right.stick j) ∧
    getAxis j LEFT_JOY_Y (initAxes R) = rescale (JOYSTICK_DEADBAND R) (Side.left.stick j) := by
  have hright : rowOf maxAxes RIGHT_JOY_Y = some 5 := rfl
  have hleft : rowOf maxAxes LEFT_JOY_Y = some 1 := rfl
  rw [getAxis_eq hright, getAxis_eq hleft, initAxes_deadband.1, initAxes_deadband.2]
  exact ⟨rfl, rfl⟩

omit [IsStrictOrderedRing R] in
theorem teleop_isInverse (r : DrivesReading R) (s : DrivesState R) : (teleop r s).isInverse =
    if (getButtonRising s.invertSeen r.invertAt).1 then !s.isInverse else s.isInverse := by
  unfold teleop
  extract_lets _ t u
  rw [setTankSpeed_isInverse]
  unfold u
  split
  · rw [diagnostics_eq]
  · rfl

variable [FloorRing R] [JavaMath R] {r : DrivesReading R} {s : DrivesState R}

/-- A driven iteration sets the speeds from the two sticks. -/
theorem runState_readSticks (h : s.currentDriveState = .teleop) :
    runState (r.readSticks j) (sense (r.readSticks j) s) =
      setTankSpeed (rescale (JOYSTICK_DEADBAND R) (Side.right.stick j))
        (rescale (JOYSTICK_DEADBAND R) (Side.left.stick j)) (inverted r s)
        (teleop r (sense r s)) := by
  have hrun : runState (r.readSticks j) (sense (r.readSticks j) s) =
      teleop (r.readSticks j) (sense r s) := runState_teleop (s := sense r s) _ h
  have hinverse : (teleop r (sense r s)).isInverse = inverted r s := by
    rw [inverted, teleop_isInverse, teleop_isInverse]
    rfl
  rw [hrun, DrivesReading.readSticks, teleop_withSticks, hinverse, (getAxis_init j).1,
    (getAxis_init j).2]

/-- The powers of a driven iteration: each side's own stick, or with the drives inverted the
other side's the other way. -/
theorem freshPowers_readSticks (h : Driven r s) : freshPowers (r.readSticks j) s =
    if inverted r s then (-stickPower (Side.left.stick j), -stickPower (Side.right.stick j))
    else (stickPower (Side.right.stick j), stickPower (Side.left.stick j)) := by
  have hoperator : (r.readSticks j).mode.isOperatorControl = true := h.operator
  have hspeed : MAX_SPEED R ≠ 0 := by norm_num [MAX_SPEED]
  simp only [freshPowers, hoperator, if_true, runState_readSticks j h.teleop]
  cases inverted r s with
  | true => simp [setTankSpeed, stickPower, overDeadband_neg, hspeed]
  | false => simp [setTankSpeed, stickPower, neg_div, hspeed]

theorem sidePower_eq (h : Driven r s) (side : Side) :
    sidePower j r s side =
        (if inverted r s then -stickPower (side.other.stick j) else stickPower (side.stick j)) ∧
      side.motorBack (execute (r.readSticks j) s) = sidePower j r s side := by
  have hflag : (execute (r.readSticks j) s).isDiagnostic = false := by
    rw [execute_isDiagnostic, if_pos h.teleop]
    exact h.released
  obtain ⟨hright, hleft, hrf, hrb, hlf, hlb⟩ := execute_writes hflag
  rw [freshPowers_readSticks j h] at hright hleft
  cases side with
  | right =>
    refine ⟨hrf.trans (hright.trans ?_), hrb.trans hrf.symm⟩
    cases inverted r s <;> rfl
  | left =>
    refine ⟨hlf.trans (hleft.trans ?_), hlb.trans hlf.symm⟩
    cases inverted r s <;> rfl

/-- Driven and not inverted, the drivers' map is right exactly when neither stick is in the
last part of its range, where the motor's deadband is added to more than the motor has. -/
theorem stickMap_iff (hd : Driven r s) (hi : inverted r s = false)
    (hj : ∀ side : Side, |side.stick j| ≤ 1) :
    StickMap j r s ↔ ∀ side : Side, |side.stick j| ≤ 0.955 := by
  have hpower : ∀ (k : Joysticks R) side, sidePower k r s side = stickPower (side.stick k) := by
    intro k side
    rw [(sidePower_eq k hd side).1, hi]
    rfl
  have hrange : ∀ side, sidePower j r s side ∈ Set.Icc (-1) 1 ↔ |side.stick j| ≤ 0.955 := by
    intro side
    rw [hpower, stickPower_mem_iff]
  constructor
  · intro hmap side
    exact (hrange side).mp (hmap.range side)
  · intro hshort
    constructor
    · exact fun side => (sidePower_eq j hd side).2
    · exact fun side => (hrange side).mpr (hshort side)
    · intro side
      rw [hpower, stickPower_eq_zero_iff (hj side)]
    · intro k side hk
      rw [hpower, hpower, hk, stickPower_neg]
    · intro k side _ hjout hkout hlt
      rw [hpower, hpower]
      exact stickPower_lt hjout hkout hlt
    · intro r' s' hd' hi' side
      rw [(sidePower_eq j hd' side).1, hi', hpower]
      rfl

end Execute

section FullStick

/-- Every axis at the same raw value. -/
def allAxes (raw : R) : Joysticks R := fun _ _ => raw

/-- The drives in teleop, and an iteration of theirs. -/
def teleopDrives (R : Type*) [Field R] [LinearOrder R] : DrivesState R :=
  { currentDriveState := .teleop }

def teleopReading (R : Type*) [Field R] : DrivesReading R := { mode := .teleopEnabled }

theorem teleop_driven : Driven (teleopReading R) (teleopDrives R) ∧
    inverted (teleopReading R) (teleopDrives R) = false := by
  refine ⟨⟨rfl, rfl, rfl⟩, ?_⟩
  rw [inverted, teleop_isInverse]
  rfl

omit [LinearOrder R] in
theorem allAxes_stick (raw : R) (side : Side) : side.stick (allAxes raw) = raw := by
  cases side <;> rfl

theorem stickMap_iff_halfway :
    StickMap (allAxes (0.5 : ℝ)) (teleopReading ℝ) (teleopDrives ℝ) ↔
      ∀ side : Side, |side.stick (allAxes (0.5 : ℝ))| ≤ 0.955 := by
  apply stickMap_iff _ teleop_driven.1 teleop_driven.2
  intro side
  rw [allAxes_stick]
  norm_num [abs_of_pos]

/-- Full sticks are commanded as more than full power. -/
theorem fullSticks_out_of_range :
    ¬ ∀ (j : Joysticks ℝ) (r : DrivesReading ℝ) (s : DrivesState ℝ), Driven r s →
      inverted r s = false → (∀ side : Side, |side.stick j| ≤ 1) → StickMap j r s := by
  intro hall
  have hmap := hall (allAxes 1) _ _ teleop_driven.1 teleop_driven.2 (by simp [allAxes_stick])
  have hmem := hmap.range .right
  rw [(sidePower_eq _ teleop_driven.1 .right).1, teleop_driven.2] at hmem
  have hle : |(1 : ℝ)| ≤ 0.955 := stickPower_mem_iff.mp (by simpa [allAxes_stick] using hmem)
  norm_num at hle

end FullStick

end SparxRobot.Drives
