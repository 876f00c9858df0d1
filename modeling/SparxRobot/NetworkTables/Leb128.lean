import Mathlib.Data.UInt
import Mathlib.Tactic.Ring
import SparxRobot.Codec.Reader
import SparxRobot.NetworkTables.Value

/-! Numbers in base 128, the lowest digit first. The decoder shifts the digits as ints, which
C++ leaves undefined from 2 to the 31 on. -/
namespace SparxRobot.NetworkTables
open Codec

/-- Every byte but the last has its highest bit set. -/
def uleb128 (val : ℕ) : Bytes :=
  let byte := UInt8.ofNat (val &&& 0x7f)
  let val' := val >>> 7
  if _ : val' ≠ 0 then (byte ||| 0x80) :: uleb128 val' else [byte]
termination_by val
decreasing_by
  rw [Nat.shiftRight_eq_div_pow] at *
  omega

/-- Why nothing was read: the stream ended, the decoder was given an error, or C++ leaves
undefined what happens. -/
inductive Failure where
  | ended
  | error (text : String)
  | undefined
  deriving DecidableEq

abbrev WireDecoder := Reader UInt8 Failure

namespace WireDecoder

/-- The digits are shifted as ints: a shift by 32 or more is undefined, and so is one that
leaves the type. -/
def readUleb128 (result shift : ℕ) : WireDecoder ℕ
  | [] => .error .ended
  | byte :: rest =>
      let digit := byte.toNat &&& 0x7f
      if 32 ≤ shift ∨ 2147483648 ≤ digit <<< shift then .error .undefined
      else
        let result := result ||| digit <<< shift
        if byte &&& 0x80 = 0 then .ok (result, rest) else readUleb128 result (shift + 7) rest

def ReadUleb128 : WireDecoder ℕ := readUleb128 0 0

theorem uleb128_eq (val : ℕ) : uleb128 val =
    if val < 128 then [UInt8.ofNat val]
    else (UInt8.ofNat (val % 128) ||| 0x80) :: uleb128 (val / 128) := by
  rw [uleb128, Nat.shiftRight_eq_div_pow]
  have hdigit : val &&& 0x7f = val % 128 := Nat.and_two_pow_sub_one_eq_mod val 7
  by_cases h : val < 128
  · rw [if_pos h, dif_neg (by omega), hdigit, Nat.mod_eq_of_lt h]
  · rw [if_neg h, dif_pos (by omega), hdigit]

/-- A byte of a number: its digit, and whether it is the last one. -/
theorem digit_last {d : ℕ} (h : d < 128) :
    (UInt8.ofNat d).toNat &&& 0x7f = d ∧ UInt8.ofNat d &&& 0x80 = 0 := by
  revert d
  decide

theorem digit_more {d : ℕ} (h : d < 128) : (UInt8.ofNat d ||| 0x80).toNat &&& 0x7f = d ∧
    (UInt8.ofNat d ||| 0x80) &&& 0x80 ≠ 0 := by
  revert d
  decide

/-- A digit above the ones that are there already. -/
theorem or_digit {result shift : ℕ} (h : result < 2 ^ shift) (d : ℕ) :
    result ||| d <<< shift = result + d * 2 ^ shift := by
  rw [Nat.or_comm, ← Nat.shiftLeft_add_eq_or_of_lt h, Nat.shiftLeft_eq, Nat.add_comm]

section Digits

variable {val d result shift : ℕ} {rest : Bytes}

/-- The digit is undefined where it is shifted out of an int. -/
def ShiftedOut (d shift : ℕ) : Prop := 32 ≤ shift ∨ 2147483648 ≤ d <<< shift

instance (d shift : ℕ) : Decidable (ShiftedOut d shift) := by unfold ShiftedOut; infer_instance

theorem readUleb128_last (hd : d < 128) : readUleb128 result shift (UInt8.ofNat d :: rest) =
    if ShiftedOut d shift then .error .undefined else .ok (result ||| d <<< shift, rest) := by
  obtain ⟨hdigit, hbit⟩ := digit_last hd
  simp only [readUleb128, hdigit, hbit, ↓reduceIte, ShiftedOut]

theorem readUleb128_more (hd : d < 128) :
    readUleb128 result shift ((UInt8.ofNat d ||| 0x80) :: rest) =
      if ShiftedOut d shift then .error .undefined
      else readUleb128 (result ||| d <<< shift) (shift + 7) rest := by
  obtain ⟨hdigit, hbit⟩ := digit_more hd
  simp only [readUleb128, hdigit, hbit, ↓reduceIte, ShiftedOut]

theorem split_digit (val shift : ℕ) :
    val * 2 ^ shift = val % 128 * 2 ^ shift + val / 128 * 2 ^ (shift + 7) := by
  rw [pow_add, mul_comm (2 ^ shift), ← mul_assoc, ← add_mul]
  congr 1
  omega

/-- With `shift` bits read, a number that fits into the 31 bits of an int is added to them. -/
theorem readUleb128_uleb128 (hresult : result < 2 ^ shift) (hval : val * 2 ^ shift < 2147483648)
    (hshift : shift < 32) :
    readUleb128 result shift (uleb128 val ++ rest) = .ok (result + val * 2 ^ shift, rest) := by
  induction val using Nat.strong_induction_on generalizing result shift with
  | _ val ih =>
    rw [uleb128_eq]
    split
    · next hlast =>
      have hfits : ¬ ShiftedOut val shift := by
        rw [ShiftedOut, Nat.shiftLeft_eq]
        omega
      rw [List.singleton_append, readUleb128_last hlast, if_neg hfits, or_digit hresult]
    · next hmore =>
      have hd : val % 128 < 128 := Nat.mod_lt _ (by omega)
      have hsplit := split_digit val shift
      have hfits : ¬ ShiftedOut (val % 128) shift := by
        rw [ShiftedOut, Nat.shiftLeft_eq]
        omega
      have hnext : 2 ^ (shift + 7) ≤ val / 128 * 2 ^ (shift + 7) :=
        Nat.le_mul_of_pos_left _ (by omega)
      have hless : result + val % 128 * 2 ^ shift < 2 ^ (shift + 7) := by
        have hle : (val % 128 + 1) * 2 ^ shift ≤ 128 * 2 ^ shift := Nat.mul_le_mul_right _ hd
        rw [Nat.add_mul, Nat.one_mul] at hle
        rw [pow_add]
        omega
      have hshift' : shift + 7 < 32 := by
        have hbound : 2 ^ (shift + 7) < 2 ^ 31 := by omega
        have hlt := (Nat.pow_lt_pow_iff_right (by omega)).mp hbound
        omega
      rw [List.cons_append, readUleb128_more hd, if_neg hfits, or_digit hresult,
        ih _ (by omega) hless (by omega) hshift', add_assoc, ← hsplit]

theorem takes_readUleb128 (h : val < 2147483648) : Takes ReadUleb128 (uleb128 val) val := by
  intro rest
  have hval : readUleb128 0 0 (uleb128 val ++ rest) = .ok (0 + val * 2 ^ 0, rest) :=
    readUleb128_uleb128 (by omega) (by omega) (by omega)
  rwa [zero_add, pow_zero, mul_one] at hval

/-- What is read fits into the 31 bits. -/
theorem returns_readUleb128 (hresult : result < 2147483648) :
    Returns (readUleb128 result shift) fun n => n < 2147483648 := by
  intro s n rest hrun
  induction s generalizing result shift with
  | nil => nomatch hrun
  | cons byte s ih =>
    simp only [StateT.run, readUleb128] at hrun ih
    split at hrun
    · nomatch hrun
    · next hfits =>
      obtain ⟨-, hdigit⟩ := not_or.mp hfits
      have hor := Nat.or_lt_two_pow (n := 31) hresult (not_le.mp hdigit)
      split at hrun
      · obtain ⟨rfl, -⟩ := Prod.mk.inj (Except.ok.inj hrun)
        exact hor
      · exact ih hor hrun

end Digits

end WireDecoder

end SparxRobot.NetworkTables
