import Mathlib.Algebra.Group.Int.Defs
import Mathlib.Algebra.Group.Nat.Defs

/-! The arithmetic of Java's `long`: results wrap to 64 bits. -/
namespace SparxRobot.Java

/-- The low 64 bits of a result, read with their sign. -/
def wrapLong (x : ℤ) : ℤ := Int.bmod x (2 ^ 64)

/-- Congruence modulo the word size, and the range of a word. -/
theorem wrapLong_spec (x : ℤ) :
    (∃ k : ℤ, wrapLong x = x + k * 2 ^ 64) ∧ -2 ^ 63 ≤ wrapLong x ∧ wrapLong x < 2 ^ 63 := by
  have hdiv := Int.mul_ediv_add_emod x (2 ^ 64)
  unfold wrapLong
  rw [Int.bmod_def]
  split
  · exact ⟨⟨-(x / 2 ^ 64), by omega⟩, by omega, by omega⟩
  · exact ⟨⟨-(x / 2 ^ 64) - 1, by omega⟩, by omega, by omega⟩

theorem wrapLong_of_bounds {x : ℤ} (hmin : -2 ^ 63 ≤ x) (hmax : x < 2 ^ 63) :
    wrapLong x = x := by
  obtain ⟨⟨k, hk⟩, hlower, hupper⟩ := wrapLong_spec x
  omega

/-- Twice a number of more than 62 bits turns negative. -/
theorem wrapLong_double_neg {x : ℤ} (hmin : 2 ^ 62 ≤ x) (hmax : x < 2 ^ 63) :
    wrapLong (x * 2) < 0 := by
  obtain ⟨⟨k, hk⟩, hlower, hupper⟩ := wrapLong_spec (x * 2)
  omega

end SparxRobot.Java
