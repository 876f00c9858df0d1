import Mathlib.Data.Nat.ModEq
import Mathlib.Tactic.Common
import Mathlib.Tactic.Ring

/-! Numbers as bytes, the highest first. -/
namespace Codec

/-- The lowest `k` bytes of a number. -/
def bytes : ℕ → ℕ → List UInt8
  | 0, _ => []
  | k + 1, n => UInt8.ofNat (n >>> (8 * k)) :: bytes k n

/-- A byte after the other is shifted in. -/
def number (w : List UInt8) : ℕ := w.foldl (fun v b => v <<< 8 ||| b.toNat) 0

@[simp] theorem length_bytes (k n : ℕ) : (bytes k n).length = k := by
  induction k with
  | zero => rfl
  | succ k ih => rw [bytes, List.length_cons, ih]

theorem shift_or_byte (v : ℕ) (b : UInt8) : v <<< 8 ||| b.toNat = v * 256 + b.toNat := by
  rw [← Nat.shiftLeft_add_eq_or_of_lt b.toNat_lt, Nat.shiftLeft_eq]

theorem foldl_bytes (k n v : ℕ) :
    (bytes k n).foldl (fun v b => v <<< 8 ||| b.toNat) v = v * 256 ^ k + n % 256 ^ k := by
  induction k generalizing v with
  | zero => simp [bytes, Nat.mod_one]
  | succ k ih =>
    have hdigit : (UInt8.ofNat (n >>> (8 * k))).toNat = n / 256 ^ k % 256 := by
      rw [UInt8.toNat_ofNat', Nat.shiftRight_eq_div_pow, pow_mul]
      rfl
    rw [bytes, List.foldl_cons, ih, shift_or_byte, hdigit, Nat.mod_pow_succ]
    ring

theorem number_bytes (k n : ℕ) : number (bytes k n) = n % 256 ^ k := by
  rw [number, foldl_bytes, zero_mul, zero_add]

/-- `k` bytes make a number of `k` bytes. -/
theorem number_lt (w : List UInt8) : number w < 256 ^ w.length := by
  suffices h : ∀ v, w.foldl (fun v b => v <<< 8 ||| b.toNat) v < (v + 1) * 256 ^ w.length by
    simpa [number] using h 0
  induction w with
  | nil => simp
  | cons b w ih =>
    intro v
    have hb := b.toNat_lt
    rw [List.foldl_cons, shift_or_byte, List.length_cons, pow_succ']
    refine (ih _).trans_le ?_
    rw [← mul_assoc]
    exact Nat.mul_le_mul_right _ (by omega)

end Codec
