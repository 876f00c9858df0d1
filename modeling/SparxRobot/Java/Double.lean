import Mathlib.Data.Int.Log
import Mathlib.Data.Rat.Floor
import SparxRobot.Java.Remainder

/-! The rounding of Java's `double`, over the rationals: to the nearest number of 53 binary
digits, ties to the even one. Overflow and the signed zeros are left out, and the grid goes
on below the subnormal numbers, where sums and differences are exact anyway. -/
namespace SparxRobot.Java

/-- At most 53 binary digits, at any exponent. -/
def IsDouble (x : ℚ) : Prop := ∃ m k : ℤ, x = m * 2 ^ k ∧ |m| < 2 ^ 53

/-- The distance of neighbouring doubles at the magnitude of `x`. -/
def ulp (x : ℚ) : ℚ := 2 ^ (Int.log 2 |x| - 52)

def roundDouble (x : ℚ) : ℚ := rint (x / ulp x) * ulp x

variable {x y d : ℚ}

section Integers

/-- No integer is nearer. -/
theorem abs_sub_rint_le (x : ℚ) (n : ℤ) : |x - rint x| ≤ |x - n| := by
  rcases eq_or_ne (rint x) n with heq | hne
  · rw [heq]
  · have hapart : (1 : ℚ) ≤ |(rint x : ℚ) - n| := by
      have hint : 1 ≤ |rint x - n| := Int.one_le_abs (sub_ne_zero.mpr hne)
      exact_mod_cast hint
    have htriangle := abs_sub_le (rint x : ℚ) x n
    rw [abs_sub_comm (rint x : ℚ) x] at htriangle
    linarith [abs_sub_rint x]

theorem rint_intCast (n : ℤ) : rint (n : ℚ) = n := by
  have hzero : |(n : ℚ) - rint (n : ℚ)| ≤ 0 := by simpa using abs_sub_rint_le (n : ℚ) n
  have heq : (n : ℚ) = rint (n : ℚ) := sub_eq_zero.mp (abs_nonpos_iff.mp hzero)
  exact_mod_cast heq.symm

/-- Rounding stays within integer bounds. -/
theorem abs_rint_le {n : ℤ} (h : |x| ≤ n) : |rint x| ≤ n := by
  obtain ⟨hlo, hhi⟩ := abs_le.mp h
  have htop := abs_sub_rint_le x n
  have hbottom := abs_sub_rint_le x (-n)
  push_cast at hbottom
  rw [abs_of_nonpos (by linarith : x - n ≤ 0)] at htop
  rw [abs_of_nonneg (by linarith : 0 ≤ x - -(n : ℚ))] at hbottom
  have hle : |(rint x : ℚ)| ≤ n := by
    rw [abs_le] at htop hbottom ⊢
    constructor <;> linarith
  exact_mod_cast hle

end Integers

section Grid

theorem ulp_pos (x : ℚ) : 0 < ulp x := zpow_pos two_pos _

theorem log_le_abs (hx : x ≠ 0) : (2 : ℚ) ^ Int.log 2 |x| ≤ |x| := by
  exact_mod_cast Int.zpow_log_le_self (b := 2) (by decide) (abs_pos.mpr hx)

theorem abs_lt_log (x : ℚ) : |x| < 2 ^ (Int.log 2 |x| + 1) := by
  exact_mod_cast Int.lt_zpow_succ_log_self (b := 2) (by decide) |x|

/-- The powers of two from the unit on are whole numbers of units. -/
theorem zpow_eq_mul_ulp {k : ℤ} (hk : Int.log 2 |x| - 52 ≤ k) :
    ∃ n : ℤ, (2 : ℚ) ^ k = n * ulp x := by
  refine ⟨2 ^ (k - (Int.log 2 |x| - 52)).toNat, ?_⟩
  have hpow : (((2 : ℤ) ^ (k - (Int.log 2 |x| - 52)).toNat : ℤ) : ℚ) =
      2 ^ (k - (Int.log 2 |x| - 52)) := by
    rw [Int.cast_pow, Int.cast_ofNat, ← zpow_natCast, Int.toNat_of_nonneg (by omega)]
  rw [hpow, ulp, ← zpow_add₀ two_ne_zero, sub_add_cancel]

/-- A double is a whole number of units of `x`, or smaller than every number of the magnitude
of `x`. -/
theorem IsDouble.grid (hd : IsDouble d) (x : ℚ) :
    (∃ n : ℤ, d = n * ulp x) ∨ |d| < 2 ^ Int.log 2 |x| := by
  obtain ⟨m, k, rfl, hm⟩ := hd
  rcases le_or_gt (Int.log 2 |x| - 52) k with hk | hk
  · obtain ⟨n, hn⟩ := zpow_eq_mul_ulp hk
    refine .inl ⟨m * n, ?_⟩
    rw [hn]
    push_cast
    ring
  · right
    have hm' : |(m : ℚ)| < 2 ^ (53 : ℤ) := by exact_mod_cast hm
    calc |(m : ℚ) * 2 ^ k| = |(m : ℚ)| * 2 ^ k := by
          rw [abs_mul, abs_of_pos (zpow_pos two_pos k : (0 : ℚ) < 2 ^ k)]
      _ < 2 ^ (53 : ℤ) * 2 ^ k := mul_lt_mul_of_pos_right hm' (zpow_pos two_pos k)
      _ = 2 ^ (53 + k) := (zpow_add₀ two_ne_zero 53 k).symm
      _ ≤ 2 ^ Int.log 2 |x| := zpow_le_zpow_right₀ one_le_two (by omega)

end Grid

section Rounding

theorem abs_sub_roundDouble_grid (x : ℚ) (n : ℤ) :
    |x - roundDouble x| ≤ |x - n * ulp x| := by
  have hscale : ∀ k : ℤ, |x - k * ulp x| = |x / ulp x - k| * ulp x := by
    intro k
    rw [← abs_of_pos (ulp_pos x), ← abs_mul, abs_of_pos (ulp_pos x), sub_mul,
      div_mul_cancel₀ _ (ulp_pos x).ne']
  rw [roundDouble, hscale, hscale]
  exact mul_le_mul_of_nonneg_right (abs_sub_rint_le _ n) (ulp_pos x).le

/-- No double is nearer. -/
theorem abs_sub_roundDouble_le (x : ℚ) (hd : IsDouble d) : |x - roundDouble x| ≤ |x - d| := by
  rcases eq_or_ne x 0 with rfl | hx
  · have hzero : roundDouble 0 = 0 := by
      have hrint : rint (0 : ℚ) = 0 := by simpa using rint_intCast 0
      rw [roundDouble, zero_div, hrint, Int.cast_zero, zero_mul]
    rw [hzero, sub_zero, abs_zero]
    exact abs_nonneg _
  rcases hd.grid x with ⟨n, rfl⟩ | hsmall
  · exact abs_sub_roundDouble_grid x n
  · -- the power of two at the magnitude of `x` lies between
    obtain ⟨n, hn⟩ := zpow_eq_mul_ulp (x := x) (k := Int.log 2 |x|) (by omega)
    have hlog := log_le_abs hx
    have hapart : |x| - 2 ^ Int.log 2 |x| ≤ |x - d| := by
      linarith [abs_sub_abs_le_abs_sub x d]
    rcases le_total 0 x with hpos | hneg
    · rw [abs_of_nonneg hpos] at hn hlog hapart
      have hgrid := abs_sub_roundDouble_grid x n
      rw [← hn, abs_of_nonneg (by linarith : 0 ≤ x - 2 ^ Int.log 2 x)] at hgrid
      exact hgrid.trans hapart
    · have hgrid := abs_sub_roundDouble_grid x (-n)
      rw [Int.cast_neg, neg_mul, ← hn, sub_neg_eq_add] at hgrid
      rw [abs_of_nonpos hneg] at hlog hapart hgrid
      rw [abs_of_nonpos (by linarith : x + 2 ^ Int.log 2 (-x) ≤ 0)] at hgrid
      linarith

theorem roundDouble_of_isDouble (hx : IsDouble x) : roundDouble x = x := by
  have hzero : |x - roundDouble x| ≤ 0 := by simpa using abs_sub_roundDouble_le x hx
  exact (sub_eq_zero.mp (abs_nonpos_iff.mp hzero)).symm

theorem isDouble_roundDouble (x : ℚ) : IsDouble (roundDouble x) := by
  have hlt : |x / ulp x| ≤ ((2 ^ 53 : ℤ) : ℚ) := by
    rw [abs_div, abs_of_pos (ulp_pos x), div_le_iff₀ (ulp_pos x)]
    have hpow : ((2 ^ 53 : ℤ) : ℚ) * ulp x = 2 ^ (Int.log 2 |x| + 1) := by
      rw [ulp, show ((2 ^ 53 : ℤ) : ℚ) = 2 ^ (53 : ℤ) by norm_num, ← zpow_add₀ two_ne_zero]
      congr 1
      omega
    exact hpow ▸ (abs_lt_log x).le
  rcases (abs_rint_le hlt).lt_or_eq with hm | hm
  · exact ⟨_, _, rfl, hm⟩
  · -- a mantissa that has grown by a digit
    have hgrown : ∀ s : ℤ, rint (x / ulp x) = s * 2 ^ 53 → |s| ≤ 1 →
        IsDouble (roundDouble x) := by
      intro s hs hsign
      refine ⟨s * 2 ^ 52, Int.log 2 |x| - 51, ?_, ?_⟩
      · rw [roundDouble, hs, ulp,
          show Int.log 2 |x| - 51 = 1 + (Int.log 2 |x| - 52) by ring, zpow_add₀ two_ne_zero]
        push_cast
        ring
      · rw [abs_mul]
        norm_num
        omega
    rcases abs_eq (by positivity) |>.mp hm with hpos | hneg
    · exact hgrown 1 (by omega) (by decide)
    · exact hgrown (-1) (by omega) (by decide)

theorem roundDouble_mono (h : x ≤ y) : roundDouble x ≤ roundDouble y := by
  rcases h.lt_or_eq with hlt | rfl
  swap
  · exact le_rfl
  by_contra hgt
  rw [not_le] at hgt
  -- both lie on the wrong side of the middle
  have hx : roundDouble y + roundDouble x ≤ 2 * x := by
    have hnear := abs_sub_roundDouble_le x (isDouble_roundDouble y)
    by_contra hmid
    rw [abs_of_neg (by linarith : x - roundDouble x < 0), le_abs] at hnear
    rcases hnear with hnear | hnear <;> linarith
  have hy : 2 * y ≤ roundDouble y + roundDouble x := by
    have hnear := abs_sub_roundDouble_le y (isDouble_roundDouble x)
    by_contra hmid
    rw [abs_of_pos (by linarith : 0 < y - roundDouble y), le_abs] at hnear
    rcases hnear with hnear | hnear <;> linarith
  linarith

theorem roundDouble_intCast {n : ℤ} (hn : |n| < 2 ^ 53) : roundDouble n = n :=
  roundDouble_of_isDouble ⟨n, 0, by simp, hn⟩

end Rounding

end SparxRobot.Java
