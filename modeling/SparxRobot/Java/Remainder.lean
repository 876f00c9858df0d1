import Mathlib.Algebra.Group.ModEq
import Mathlib.Tactic.Linarith
import SparxRobot.Java.Math

/-! The two remainders of Java as representatives modulo the divisor: `%` is smaller than the
divisor and `IEEEremainder` at most half of it, which determines it but for the ties. -/
namespace SparxRobot.Java

variable {R : Type*} [Field R] [LinearOrder R]

section Congruent

variable [FloorRing R]

theorem IEEEremainder_modEq (a p : R) : IEEEremainder a p ≡ a [PMOD p] := by
  refine AddCommGroup.modEq_iff_zsmul'.mpr ⟨rint (a / p), ?_⟩
  rw [IEEEremainder, zsmul_eq_mul]
  ring

theorem fmod_modEq (a p : R) : fmod a p ≡ a [PMOD p] := by
  refine AddCommGroup.modEq_iff_zsmul'.mpr ⟨trunc (a / p), ?_⟩
  rw [fmod, zsmul_eq_mul]
  ring

end Congruent

variable [IsStrictOrderedRing R] {a b p : R}

/-- Congruent numbers less than the divisor apart are equal. -/
theorem eq_of_modEq_of_near (h : a ≡ b [PMOD p]) (hnear : |b - a| < p) : a = b := by
  obtain ⟨k, hk⟩ := AddCommGroup.modEq_iff_zsmul'.mp h
  rw [zsmul_eq_mul] at hk
  have hp : 0 < p := (abs_nonneg _).trans_lt hnear
  have hk0 : k = 0 := by
    have habs : |(k : R)| * p < 1 * p := by
      rwa [← abs_of_pos hp, ← abs_mul, ← hk, abs_of_pos hp, one_mul]
    have hlt : |(k : R)| < 1 := lt_of_mul_lt_mul_right habs hp.le
    exact Int.abs_lt_one_iff.mp (by exact_mod_cast hlt)
  rw [hk0, Int.cast_zero, zero_mul] at hk
  linarith

/-- A representative of less than half the divisor is the only one of at most half of it. -/
theorem eq_of_modEq (h : a ≡ b [PMOD p]) (ha : |a| < p / 2) (hb : |b| ≤ p / 2) : a = b :=
  eq_of_modEq_of_near h (by linarith [abs_sub b a])

/-- Representatives of at most half the divisor differ at most in their sign. -/
theorem abs_eq_of_modEq (h : a ≡ b [PMOD p]) (ha : |a| ≤ p / 2) (hb : |b| ≤ p / 2) :
    |a| = |b| := by
  rcases ha.lt_or_eq with ha' | ha'
  · rw [eq_of_modEq h ha' hb]
  rcases hb.lt_or_eq with hb' | hb'
  · rw [eq_of_modEq h.symm hb' ha]
  · rw [ha', hb']

variable [FloorRing R]

theorem abs_sub_rint (x : R) : |x - rint x| ≤ 1 / 2 := by
  have hlo := Int.floor_le x
  have hhi := Int.lt_floor_add_one x
  have hhalf : (0.5 : R) = 1 / 2 := by norm_num
  unfold rint
  rw [hhalf]
  split_ifs <;> push_cast <;> rw [abs_le] <;> constructor <;> linarith

theorem abs_sub_trunc (x : R) : |x - trunc x| < 1 := by
  unfold trunc
  split_ifs
  · have hlo := Int.floor_le x
    have hhi := Int.lt_floor_add_one x
    rw [abs_lt]
    constructor <;> linarith
  · have hlo := Int.ceil_lt_add_one x
    have hhi := Int.le_ceil x
    rw [abs_lt]
    constructor <;> linarith

theorem abs_IEEEremainder_le (hp : 0 < p) (a : R) : |IEEEremainder a p| ≤ p / 2 := by
  have heq : IEEEremainder a p = p * (a / p - rint (a / p)) := by
    rw [IEEEremainder, mul_sub, mul_div_cancel₀ _ hp.ne']
  rw [heq, abs_mul, abs_of_pos hp]
  have hround := mul_le_mul_of_nonneg_left (abs_sub_rint (a / p)) hp.le
  linarith

theorem abs_fmod_lt (hp : 0 < p) (a : R) : |fmod a p| < p := by
  have heq : fmod a p = p * (a / p - trunc (a / p)) := by
    rw [fmod, mul_sub, mul_div_cancel₀ _ hp.ne']
  rw [heq, abs_mul, abs_of_pos hp]
  have htrunc := mul_lt_mul_of_pos_left (abs_sub_trunc (a / p)) hp
  linarith

/-- The remainder is any representative of less than half the divisor. -/
theorem IEEEremainder_eq (h : b ≡ a [PMOD p]) (hb : |b| < p / 2) : IEEEremainder a p = b := by
  have hp : 0 < p := by linarith [abs_nonneg b]
  exact (eq_of_modEq (h.trans (IEEEremainder_modEq a p).symm) hb
    (abs_IEEEremainder_le hp a)).symm

theorem IEEEremainder_of_abs_lt (ha : |a| < p / 2) : IEEEremainder a p = a :=
  IEEEremainder_eq (AddCommGroup.modEq_refl a) ha

/-- Off the ties the remainder is the same for all congruent numbers. -/
theorem IEEEremainder_congr (h : a ≡ b [PMOD p]) (ha : |IEEEremainder a p| < p / 2) :
    IEEEremainder b p = IEEEremainder a p :=
  IEEEremainder_eq ((IEEEremainder_modEq a p).trans h) ha

/-- Its magnitude is the same for all congruent numbers, ties included. -/
theorem abs_IEEEremainder_congr (hp : 0 < p) (h : a ≡ b [PMOD p]) :
    |IEEEremainder a p| = |IEEEremainder b p| :=
  abs_eq_of_modEq (((IEEEremainder_modEq a p).trans h).trans (IEEEremainder_modEq b p).symm)
    (abs_IEEEremainder_le hp a) (abs_IEEEremainder_le hp b)

/-- The ties are the odd multiples of half the divisor. -/
theorem abs_IEEEremainder_eq_half (hp : 0 < p) :
    |IEEEremainder a p| = p / 2 ↔ a ≡ p / 2 [PMOD p] := by
  have hhalf : |p / 2| = p / 2 := abs_of_pos (half_pos hp)
  constructor
  · intro h
    rcases (abs_eq (half_pos hp).le).mp h with heq | heq
    · exact heq ▸ (IEEEremainder_modEq a p).symm
    · refine (heq ▸ (IEEEremainder_modEq a p).symm).trans ?_
      refine AddCommGroup.modEq_iff_zsmul'.mpr ⟨1, ?_⟩
      rw [one_zsmul]
      ring
  · intro h
    rw [abs_IEEEremainder_congr hp h]
    exact (abs_eq_of_modEq (IEEEremainder_modEq (p / 2) p) (abs_IEEEremainder_le hp _)
      hhalf.le).trans hhalf

end SparxRobot.Java
