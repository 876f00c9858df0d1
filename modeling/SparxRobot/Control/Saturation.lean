import Mathlib.Algebra.Order.Group.MinMax
import Mathlib.Algebra.Order.Ring.Defs
import Mathlib.Order.Interval.Set.UnorderedInterval
import Mathlib.Tactic.Linarith
import Mathlib.Tactic.Ring

/-! Limited signals: a signal clamped to a range, an accumulator that keeps no more than the
range can use, and a signal that follows a target at a limited rate. -/
namespace Control

variable {R : Type*} [LinearOrder R]

def clamp (low high x : R) : R := max low (min high x)

variable {low high direct x : R}

theorem clamp_mem (h : low ≤ high) : clamp low high x ∈ Set.Icc low high :=
  ⟨le_max_left _ _, max_le h (min_le_left _ _)⟩

theorem clamp_of_mem (hlow : low ≤ x) (hhigh : x ≤ high) : clamp low high x = x := by
  rw [clamp, min_eq_right hhigh, max_eq_right hlow]

theorem clamp_of_le (h : low ≤ high) (hx : x ≤ low) : clamp low high x = low := by
  rw [clamp, min_eq_right (hx.trans h), max_eq_left hx]

theorem clamp_of_ge (h : low ≤ high) (hx : high ≤ x) : clamp low high x = high := by
  rw [clamp, min_eq_left hx, max_eq_right h]

variable [CommRing R]

/-- What an accumulator keeps when it is added to `direct` and the sum is clamped: as much as
the range can use, and nothing against its own sign. -/
def unwind (low high direct x : R) : R :=
  clamp (min 0 (low - direct)) (max 0 (high - direct)) x

/-- A step towards a target of at most `limit`. -/
def approach (limit target x : R) : R := x + clamp (-limit) limit (target - x)

theorem unwind_mem : unwind low high direct x ∈
    Set.Icc (min 0 (low - direct)) (max 0 (high - direct)) :=
  clamp_mem ((min_le_left _ _).trans (le_max_left _ _))

/-- What is kept lies between nothing and what there was. -/
theorem unwind_mem_uIcc : unwind low high direct x ∈ Set.uIcc 0 x := by
  have hlow : min 0 (low - direct) ≤ 0 := min_le_left _ _
  have hhigh : 0 ≤ max 0 (high - direct) := le_max_left _ _
  unfold unwind clamp
  rcases le_total 0 x with hx | hx
  · rw [Set.uIcc_of_le hx, max_eq_right (hlow.trans (le_min hhigh hx))]
    exact ⟨le_min hhigh hx, min_le_right _ _⟩
  · rw [Set.uIcc_of_ge hx, min_eq_right (hx.trans hhigh)]
    exact ⟨le_max_right _ _, max_le hlow hx⟩

variable [IsStrictOrderedRing R]

theorem clamp_neg (h : low ≤ high) :
    clamp (-high) (-low) (-x) = -clamp low high x := by
  rcases le_total x low with hlow | hlow
  · rw [clamp_of_le h hlow, clamp_of_ge (neg_le_neg h) (neg_le_neg hlow)]
  rcases le_total high x with hhigh | hhigh
  · rw [clamp_of_ge h hhigh, clamp_of_le (neg_le_neg h) (neg_le_neg hhigh)]
  · rw [clamp_of_mem hlow hhigh, clamp_of_mem (neg_le_neg hhigh) (neg_le_neg hlow)]

section Unwind

/-- In range the accumulator is kept. -/
theorem unwind_of_mem (hlow : low ≤ direct + x) (hhigh : direct + x ≤ high) :
    unwind low high direct x = x :=
  clamp_of_mem ((min_le_right _ _).trans (by linarith)) (le_trans (by linarith) (le_max_right _ _))

/-- Above the range the accumulator gives what it is responsible for. -/
theorem unwind_of_gt (h : low ≤ high) (hx : high < direct + x) : unwind low high direct x =
    if direct < high then high - direct else if 0 < x then 0 else x := by
  have hrange : min 0 (low - direct) ≤ max 0 (high - direct) :=
    (min_le_left _ _).trans (le_max_left _ _)
  unfold unwind
  split_ifs with hdirect hpos
  · have hmax : max 0 (high - direct) = high - direct := max_eq_right (by linarith)
    rw [clamp_of_ge hrange (by rw [hmax]; linarith), hmax]
  · have hmax : max 0 (high - direct) = 0 := max_eq_left (by linarith)
    rw [clamp_of_ge hrange (by rw [hmax]; exact hpos.le), hmax]
  · exact clamp_of_mem ((min_le_right _ _).trans (by linarith))
      ((not_lt.mp hpos).trans (le_max_left _ _))

theorem unwind_neg : unwind (-high) (-low) (-direct) (-x) = -unwind low high direct x := by
  have hrange : min 0 (low - direct) ≤ max 0 (high - direct) :=
    (min_le_left _ _).trans (le_max_left _ _)
  have hlow : min 0 (-high - -direct) = -max 0 (high - direct) := by
    rw [← min_neg_neg, neg_zero, neg_sub_neg, neg_sub]
  have hhigh : max 0 (-low - -direct) = -min 0 (low - direct) := by
    rw [← max_neg_neg, neg_zero, neg_sub_neg, neg_sub]
  rw [unwind, hlow, hhigh, clamp_neg hrange, unwind]

/-- Below the range it is the same with the signs turned. -/
theorem unwind_of_lt (h : low ≤ high) (hx : direct + x < low) : unwind low high direct x =
    if low < direct then low - direct else if x < 0 then 0 else x := by
  have hgt : -low < -direct + -x := by linarith
  have hmirror := unwind_of_gt (neg_le_neg h) hgt
  rw [unwind_neg, neg_eq_iff_eq_neg] at hmirror
  rw [hmirror]
  simp only [neg_lt_neg_iff, neg_pos]
  split_ifs <;> ring

/-- What was taken off an accumulator that still has something shows in full. -/
theorem direct_add_unwind (h : low ≤ high) (hzero : unwind low high direct x ≠ 0)
    (hx : unwind low high direct x ≠ x) :
    direct + unwind low high direct x = clamp low high (direct + x) := by
  rcases lt_or_ge high (direct + x) with hhigh | hhigh
  · rw [unwind_of_gt h hhigh] at hzero hx ⊢
    rw [clamp_of_ge h hhigh.le]
    split_ifs at hzero hx ⊢
    · ring
    · exact absurd rfl hzero
    · exact absurd rfl hx
  rcases lt_or_ge (direct + x) low with hlow | hlow
  · rw [unwind_of_lt h hlow] at hzero hx ⊢
    rw [clamp_of_le h hlow.le]
    split_ifs at hzero hx ⊢
    · ring
    · exact absurd rfl hzero
    · exact absurd rfl hx
  · exact absurd (unwind_of_mem hlow hhigh) hx

end Unwind

section Approach

variable {limit target : R}

omit [IsStrictOrderedRing R] in
@[simp] theorem approach_zero : approach 0 target x = x := by
  simp [approach, clamp]

/-- A target out of reach is approached by the limit, from either side. -/
theorem approach_eq (h : 0 ≤ limit) : approach limit target x =
    if limit < |target - x| then if 0 < target - x then x + limit else x - limit else target := by
  have hrange : -limit ≤ limit := by linarith
  unfold approach
  split_ifs with hfar hpos
  · rw [abs_of_pos hpos] at hfar
    rw [clamp_of_ge hrange hfar.le]
  · rw [abs_of_nonpos (not_lt.mp hpos)] at hfar
    rw [clamp_of_le hrange (by linarith)]
    ring
  · obtain ⟨hlow, hhigh⟩ := abs_le.mp (not_lt.mp hfar)
    rw [clamp_of_mem hlow hhigh]
    ring

theorem abs_sub_approach (h : 0 ≤ limit) :
    |target - approach limit target x| = max 0 (|target - x| - limit) := by
  rw [approach_eq h]
  split_ifs with hfar hpos
  · rw [abs_of_pos hpos] at hfar ⊢
    rw [max_eq_right (by linarith), abs_of_pos (by linarith)]
    ring
  · rw [abs_of_nonpos (not_lt.mp hpos)] at hfar ⊢
    rw [max_eq_right (by linarith), abs_of_neg (by linarith)]
    ring
  · rw [sub_self, abs_zero, max_eq_left (by linarith)]

/-- The step stays on its side of the target. -/
theorem approach_mem_uIcc (h : 0 ≤ limit) : approach limit target x ∈ Set.uIcc x target := by
  rw [approach_eq h]
  split_ifs with hfar hpos
  · rw [abs_of_pos hpos] at hfar
    rw [Set.uIcc_of_le (by linarith)]
    constructor <;> linarith
  · rw [abs_of_nonpos (not_lt.mp hpos)] at hfar
    rw [Set.uIcc_of_ge (by linarith)]
    constructor <;> linarith
  · exact Set.right_mem_uIcc

/-- A point is known by its distance from the target and by its side of it. -/
theorem eq_of_mem_uIcc {y z : R} (hy : y ∈ Set.uIcc x target) (hz : z ∈ Set.uIcc x target)
    (habs : |target - y| = |target - z|) : y = z := by
  rcases le_total x target with hx | hx
  · rw [Set.uIcc_of_le hx] at hy hz
    rw [abs_of_nonneg (by linarith [hy.2]), abs_of_nonneg (by linarith [hz.2])] at habs
    linarith
  · rw [Set.uIcc_of_ge hx] at hy hz
    rw [abs_of_nonpos (by linarith [hy.1]), abs_of_nonpos (by linarith [hz.1])] at habs
    linarith

/-- Two steps go as far as one with the limits of both. -/
theorem approach_approach {limit' : R} (h : 0 ≤ limit) (h' : 0 ≤ limit') :
    approach limit' target (approach limit target x) = approach (limit + limit') target x := by
  have hfirst : approach limit target x ∈ Set.uIcc x target := approach_mem_uIcc h
  have hsecond : approach limit' target (approach limit target x) ∈
      Set.uIcc (approach limit target x) target := approach_mem_uIcc h'
  refine eq_of_mem_uIcc (x := x) (Set.uIcc_subset_uIcc hfirst Set.right_mem_uIcc hsecond)
    (approach_mem_uIcc (add_nonneg h h')) ?_
  rw [abs_sub_approach h', abs_sub_approach h, abs_sub_approach (add_nonneg h h')]
  rcases le_total (|target - x| - limit) 0 with hreached | hfar
  · rw [max_eq_left hreached, max_eq_left (by linarith), max_eq_left (by linarith)]
  · rw [max_eq_right hfar, sub_sub]

end Approach

end Control
