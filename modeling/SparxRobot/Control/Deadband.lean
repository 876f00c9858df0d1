import Mathlib.Algebra.Order.Field.Basic
import Mathlib.Tactic.Linarith

/-! A deadband around zero: values inside it read as zero, and what is outside is stretched
so that the ends of the range stay where they are. -/
namespace Control

variable {K : Type*} [Field K] [LinearOrder K]

def rescale (band x : K) : K :=
  if |x| > band then (x - if x > 0 then band else -band) / (1 - band) else 0

theorem rescale_of_le {band x : K} (h : |x| ≤ band) : rescale band x = 0 :=
  if_neg (not_lt.mpr h)

variable [IsStrictOrderedRing K] {band : K}

theorem rescale_of_lt {x : K} (h0 : 0 ≤ band) (h : band < x) :
    rescale band x = (x - band) / (1 - band) := by
  have hpos : 0 < x := h0.trans_lt h
  rw [rescale, if_pos (by rwa [gt_iff_lt, abs_of_pos hpos]), if_pos hpos]

theorem rescale_of_lt_neg {x : K} (h0 : 0 ≤ band) (h : x < -band) :
    rescale band x = (x + band) / (1 - band) := by
  have hneg : x < 0 := by linarith
  rw [rescale, if_pos (by rw [gt_iff_lt, abs_of_neg hneg]; linarith),
    if_neg (not_lt.mpr hneg.le), sub_neg_eq_add]

theorem rescale_pos {x : K} (h0 : 0 ≤ band) (h1 : band < 1) (h : band < x) :
    0 < rescale band x := by
  rw [rescale_of_lt h0 h]
  exact div_pos (by linarith) (by linarith)

theorem rescale_neg_of_lt {x : K} (h0 : 0 ≤ band) (h1 : band < 1) (h : x < -band) :
    rescale band x < 0 := by
  rw [rescale_of_lt_neg h0 h]
  exact div_neg_of_neg_of_pos (by linarith) (by linarith)

theorem rescale_odd (h0 : 0 ≤ band) (x : K) : rescale band (-x) = -rescale band x := by
  rcases lt_or_ge band |x| with h | h
  · rcases lt_abs.mp h with hx | hx
    · rw [rescale_of_lt h0 hx, rescale_of_lt_neg h0 (neg_lt_neg hx), ← neg_div, neg_sub',
        sub_neg_eq_add]
    · rw [rescale_of_lt h0 hx, rescale_of_lt_neg h0 (lt_neg_of_lt_neg hx), ← neg_div, neg_add']
  · rw [rescale_of_le h, rescale_of_le (by rwa [abs_neg]), neg_zero]

/-- How far a value outside the band is from zero afterwards. -/
theorem abs_rescale {x : K} (h0 : 0 ≤ band) (h1 : band < 1) (h : band < |x|) :
    |rescale band x| = (|x| - band) / (1 - band) := by
  rcases lt_abs.mp h with hx | hx
  · rw [abs_of_pos (rescale_pos h0 h1 hx), rescale_of_lt h0 hx, abs_of_pos (h0.trans_lt hx)]
  · have hneg := lt_neg_of_lt_neg hx
    rw [abs_of_neg (rescale_neg_of_lt h0 h1 hneg), rescale_of_lt_neg h0 hneg, ← neg_div, neg_add',
      abs_of_neg (neg_pos.mp (h0.trans_lt hx))]

theorem rescale_eq_zero_iff {x : K} (h0 : 0 ≤ band) (hx : |x| ≤ 1) :
    rescale band x = 0 ↔ |x| ≤ band := by
  constructor
  · intro hzero
    by_contra hout
    have h := not_le.mp hout
    have h1 := h.trans_le hx
    rcases lt_abs.mp h with hpos | hneg
    · exact (rescale_pos h0 h1 hpos).ne' hzero
    · exact (rescale_neg_of_lt h0 h1 (by linarith)).ne hzero
  · exact rescale_of_le

/-- Outside the band the order of two values is kept strictly. -/
theorem rescale_lt_rescale {x y : K} (h0 : 0 ≤ band) (h1 : band < 1) (hx : band < |x|)
    (hy : band < |y|) (h : x < y) : rescale band x < rescale band y := by
  have hd : 0 < 1 - band := by linarith
  rcases lt_abs.mp hx with hx | hx
  · rw [rescale_of_lt h0 hx, rescale_of_lt h0 (hx.trans h)]
    exact div_lt_div_of_pos_right (by linarith) hd
  · rcases lt_abs.mp hy with hy | hy
    · exact (rescale_neg_of_lt h0 h1 (by linarith)).trans (rescale_pos h0 h1 hy)
    · rw [rescale_of_lt_neg h0 (by linarith), rescale_of_lt_neg h0 (by linarith)]
      exact div_lt_div_of_pos_right (by linarith) hd

/-- Over the whole range the order is kept. -/
theorem rescale_mono (h0 : 0 ≤ band) {x y : K} (hx : |x| ≤ 1) (hy : |y| ≤ 1)
    (h : x ≤ y) : rescale band x ≤ rescale band y := by
  rcases h.eq_or_lt with rfl | h
  · exact le_rfl
  rcases lt_or_ge band |x| with hxout | hxin
  · have h1 := hxout.trans_le hx
    rcases lt_or_ge band |y| with hyout | hyin
    · exact (rescale_lt_rescale h0 h1 hxout hyout h).le
    · rw [rescale_of_le hyin]
      rcases lt_abs.mp hxout with hpos | hneg
      · linarith [le_abs_self y]
      · exact (rescale_neg_of_lt h0 h1 (by linarith)).le
  · rw [rescale_of_le hxin]
    rcases lt_or_ge band |y| with hyout | hyin
    · rcases lt_abs.mp hyout with hpos | hneg
      · exact (rescale_pos h0 (hyout.trans_le hy) hpos).le
      · linarith [neg_abs_le x]
    · exact (rescale_of_le hyin).ge

theorem rescale_one (h0 : 0 ≤ band) (h1 : band < 1) : rescale band 1 = 1 := by
  rw [rescale_of_lt h0 h1, div_self (by linarith)]

/-- The ends of the range are the farthest a value is moved. -/
theorem abs_rescale_le_one {x : K} (h0 : 0 ≤ band) (h1 : band ≤ 1) (hx : |x| ≤ 1) :
    |rescale band x| ≤ 1 := by
  rcases h1.eq_or_lt with rfl | h1
  · rw [rescale_of_le hx, abs_zero]
    exact zero_le_one
  · obtain ⟨hlow, hhigh⟩ := abs_le.mp hx
    have habs : |(1 : K)| ≤ 1 := abs_one.le
    rw [abs_le]
    constructor
    · have hleast := rescale_mono h0 (by rwa [abs_neg]) hx hlow
      rwa [rescale_odd h0, rescale_one h0 h1] at hleast
    · have hmost := rescale_mono h0 hx habs hhigh
      rwa [rescale_one h0 h1] at hmost

end Control
