import SparxRobot.Java.Remainder

/-! Degrees, radians and bearings over the reals: what the conversions keep, and what the two
inverse tangents of a quotient make of a direction. -/
namespace SparxRobot.Java

theorem toRadians_eq (a : ℝ) : toRadians a = a / 180 * Real.pi := by
  have h180 : (180.0 : ℝ) = 180 := by norm_num
  change a / 180.0 * Real.pi = _
  rw [h180]

theorem toDegrees_eq (x : ℝ) : toDegrees x = x * 180 / Real.pi := by
  have h180 : (180.0 : ℝ) = 180 := by norm_num
  change x * 180.0 / Real.pi = _
  rw [h180]

theorem toRadians_lt {a b : ℝ} (h : a < b) : toRadians a < toRadians b := by
  rw [toRadians_eq, toRadians_eq]
  have hpi := Real.pi_pos
  gcongr

theorem toRadians_neg (a : ℝ) : toRadians (-a) = -toRadians a := by
  rw [toRadians_eq, toRadians_eq]
  ring

theorem toRadians_right_angle : toRadians (90 : ℝ) = Real.pi / 2 := by
  rw [toRadians_eq]
  ring

theorem toDegrees_le_iff {x a : ℝ} : toDegrees x ≤ a ↔ x ≤ toRadians a := by
  rw [toDegrees_eq, toRadians_eq, div_le_iff₀ Real.pi_pos]
  constructor <;> intro h <;> linarith

theorem le_toDegrees_iff {x a : ℝ} : a ≤ toDegrees x ↔ toRadians a ≤ x := by
  rw [toDegrees_eq, toRadians_eq, le_div_iff₀ Real.pi_pos]
  constructor <;> intro h <;> linarith

/-- An arctangent is in a window of degrees exactly when its argument is among the window's
tangents. -/
theorem arctan_window_iff {a q : ℝ} (hpos : 0 < a) (hlt : a < 90) :
    (-a ≤ toDegrees (Real.arctan q) ∧ toDegrees (Real.arctan q) ≤ a) ↔
      |q| ≤ Real.tan (toRadians a) := by
  have hupper : toRadians a < Real.pi / 2 := toRadians_right_angle ▸ toRadians_lt hlt
  have hlower : -(Real.pi / 2) < toRadians a := by
    rw [← toRadians_right_angle, ← toRadians_neg]
    exact toRadians_lt (by linarith)
  have harctan : Real.arctan (Real.tan (toRadians a)) = toRadians a :=
    Real.arctan_tan hlower hupper
  rw [le_toDegrees_iff, toDegrees_le_iff, toRadians_neg, ← harctan, ← Real.arctan_neg,
    Real.arctan_le_arctan_iff, Real.arctan_le_arctan_iff, harctan, abs_le]

theorem toRadians_add (a b : ℝ) : toRadians (a + b) = toRadians a + toRadians b := by
  simp only [toRadians_eq]
  ring

theorem toRadians_half_turn : toRadians (180 : ℝ) = Real.pi := by
  rw [toRadians_eq, div_self (by norm_num), one_mul]

/-- Degrees congruent modulo a turn are radians congruent modulo a turn. -/
theorem toRadians_modEq {a b : ℝ} (h : a ≡ b [PMOD 360]) :
    toRadians a ≡ toRadians b [PMOD 2 * Real.pi] := by
  obtain ⟨k, hk⟩ := AddCommGroup.modEq_iff_zsmul'.mp h
  refine AddCommGroup.modEq_iff_zsmul'.mpr ⟨k, ?_⟩
  rw [zsmul_eq_mul] at hk ⊢
  rw [toRadians_eq, toRadians_eq, ← sub_mul, ← sub_div, hk]
  ring

theorem toRadians_toDegrees (x : ℝ) : toRadians (toDegrees x) = x := by
  have hpi := Real.pi_ne_zero
  rw [toRadians_eq, toDegrees_eq]
  field_simp

theorem toDegrees_toRadians (a : ℝ) : toDegrees (toRadians a) = a := by
  have hpi := Real.pi_ne_zero
  rw [toRadians_eq, toDegrees_eq]
  field_simp

/-- Sine and cosine are the same for all congruent angles. -/
theorem sin_cos_congr {x y : ℝ} (h : x ≡ y [PMOD 2 * Real.pi]) :
    Real.sin x = Real.sin y ∧ Real.cos x = Real.cos y := by
  obtain ⟨k, hk⟩ := AddCommGroup.modEq_iff_zsmul'.mp h
  have hx : x = y - k * (2 * Real.pi) := by
    rw [zsmul_eq_mul] at hk
    linarith
  rw [hx, Real.sin_sub_int_mul_two_pi, Real.cos_sub_int_mul_two_pi]
  exact ⟨rfl, rfl⟩

/-- The other way round sine and cosine change their sign. -/
theorem sin_cos_half_turn {a b : ℝ} (h : b ≡ a + 180 [PMOD 360]) :
    Real.sin (toRadians b) = -Real.sin (toRadians a) ∧
      Real.cos (toRadians b) = -Real.cos (toRadians a) := by
  have hmod := toRadians_modEq h
  rw [toRadians_add, toRadians_half_turn] at hmod
  rw [(sin_cos_congr hmod).1, (sin_cos_congr hmod).2, Real.sin_add_pi, Real.cos_add_pi]
  exact ⟨rfl, rfl⟩

/-- Radians congruent modulo a turn are degrees congruent modulo a turn. -/
theorem toDegrees_modEq {x y : ℝ} (h : x ≡ y [PMOD 2 * Real.pi]) :
    toDegrees x ≡ toDegrees y [PMOD 360] := by
  obtain ⟨k, hk⟩ := AddCommGroup.modEq_iff_zsmul'.mp h
  refine AddCommGroup.modEq_iff_zsmul'.mpr ⟨k, ?_⟩
  have hpi := Real.pi_ne_zero
  rw [zsmul_eq_mul] at hk ⊢
  rw [toDegrees_eq, toDegrees_eq, ← sub_div, ← sub_mul, hk]
  field_simp
  ring

/-- To the front the argument of a point is the arctangent of its quotient. -/
theorem arg_of_re_pos {z : ℂ} (h : 0 < z.re) : Complex.arg z = Real.arctan (z.im / z.re) := by
  have hlt := abs_lt.mp (Complex.abs_arg_lt_pi_div_two_iff.mpr (.inl h))
  rw [← Complex.tan_arg, Real.arctan_tan hlt.1 hlt.2]

/-- The distance of a point given by distance and direction. -/
theorem norm_polar (r θ : ℝ) : ‖(⟨r * Real.cos θ, r * Real.sin θ⟩ : ℂ)‖ = |r| := by
  have hsq : (r * Real.cos θ) ^ 2 + (r * Real.sin θ) ^ 2 = r ^ 2 := by
    rw [mul_pow, mul_pow, ← mul_add, Real.cos_sq_add_sin_sq, mul_one]
  rw [Complex.norm_eq_sqrt_sq_add_sq, ← Real.sqrt_sq_eq_abs, ← hsq]

/-- Its argument is the direction. -/
theorem arg_polar {r : ℝ} (hr : 0 < r) (θ : ℝ) :
    Complex.arg ⟨r * Real.cos θ, r * Real.sin θ⟩ ≡ θ [PMOD 2 * Real.pi] := by
  have hpolar : (⟨r * Real.cos θ, r * Real.sin θ⟩ : ℂ) =
      r * (Complex.cos θ + Complex.sin θ * Complex.I) := by
    apply Complex.ext <;> simp [Complex.cos_ofReal_re, Complex.sin_ofReal_re]
  have hsub := Complex.arg_mul_cos_add_sin_mul_I_sub hr θ
  rw [hpolar]
  refine AddCommGroup.modEq_iff_zsmul'.mpr ⟨-⌊(Real.pi - θ) / (2 * Real.pi)⌋, ?_⟩
  rw [zsmul_eq_mul]
  push_cast
  linarith

/-- The direction of a point is the angle of its quotient, with half a turn for a point behind. -/
theorem atan2_modEq {y x : ℝ} (h : y ≠ 0 ∨ x ≠ 0) :
    JavaMath.atan2 y x ≡ atanOfQuotient y x + (if x < 0 then Real.pi else 0)
      [PMOD 2 * Real.pi] := by
  change Complex.arg ⟨x, y⟩ ≡ _ [PMOD _]
  rcases lt_trichotomy x 0 with hx | rfl | hx
  · have hback : (-(⟨x, y⟩ : ℂ)) ≠ 0 := fun hz => by
      have hre := congrArg Complex.re hz
      simp [hx.ne] at hre
    have hfront : Complex.arg (-(⟨x, y⟩ : ℂ)) = Real.arctan (y / x) := by
      rw [arg_of_re_pos (by simpa using hx)]
      simp [neg_div_neg_eq]
    have hangle := Complex.arg_neg_coe_angle hback
    rw [neg_neg, hfront, ← Real.Angle.coe_add, Real.Angle.angle_eq_iff_two_pi_dvd_sub] at hangle
    obtain ⟨k, hk⟩ := hangle
    rw [atanOfQuotient, if_neg hx.ne, if_pos hx]
    refine AddCommGroup.modEq_iff_zsmul'.mpr ⟨-k, ?_⟩
    rw [zsmul_eq_mul]
    push_cast
    change Real.arctan (y / x) + Real.pi - _ = _
    linarith
  · have hy : y ≠ 0 := h.resolve_right (by simp)
    have htwo : (2.0 : ℝ) = 2 := by norm_num
    rw [atanOfQuotient, if_pos rfl, if_neg (lt_irrefl _), add_zero, htwo]
    rcases hy.lt_or_gt with hy | hy
    · rw [if_neg hy.not_gt, if_pos hy, Complex.arg_eq_neg_pi_div_two_iff.mpr ⟨rfl, hy⟩]
      rfl
    · rw [if_pos hy, Complex.arg_eq_pi_div_two_iff.mpr ⟨rfl, hy⟩]
      rfl
  · rw [atanOfQuotient, if_neg hx.ne', if_neg hx.not_gt, add_zero, arg_of_re_pos hx]
    rfl

end SparxRobot.Java
