import Mathlib.Data.UInt
import Mathlib.Tactic.Common
import Mathlib.Tactic.IntervalCases

/-! Bytes as text, three of them in four characters. -/
namespace Codec

/-- What does not stand for six bits is 64. -/
def pr2six (c : UInt8) : UInt8 :=
  [64, 64, 64, 64, 64, 64, 64, 64, 64, 64, 64, 64, 64, 64, 64, 64,
   64, 64, 64, 64, 64, 64, 64, 64, 64, 64, 64, 64, 64, 64, 64, 64,
   64, 64, 64, 64, 64, 64, 64, 64, 64, 64, 64, 62, 64, 64, 64, 63,
   52, 53, 54, 55, 56, 57, 58, 59, 60, 61, 64, 64, 64, 64, 64, 64,
   64, 0, 1, 2, 3, 4, 5, 6, 7, 8, 9, 10, 11, 12, 13, 14,
   15, 16, 17, 18, 19, 20, 21, 22, 23, 24, 25, 64, 64, 64, 64, 64,
   64, 26, 27, 28, 29, 30, 31, 32, 33, 34, 35, 36, 37, 38, 39, 40,
   41, 42, 43, 44, 45, 46, 47, 48, 49, 50, 51].getD c.toNat 64

def basis_64 : List UInt8 :=
  "ABCDEFGHIJKLMNOPQRSTUVWXYZabcdefghijklmnopqrstuvwxyz0123456789+/".toList.map Char.toUInt8

/-- The character of six bits. -/
def basis (n : UInt8) : UInt8 := basis_64.getD n.toNat 0

/-- The equals sign fills the last four. -/
def Base64Encode : List UInt8 → List UInt8
  | a :: b :: c :: plain =>
      basis (a >>> 2 &&& 0x3f) :: basis ((a &&& 0x3) <<< 4 ||| (b &&& 0xf0) >>> 4) ::
        basis ((b &&& 0xf) <<< 2 ||| (c &&& 0xc0) >>> 6) :: basis (c &&& 0x3f) :: Base64Encode plain
  | [a, b] =>
      [basis (a >>> 2 &&& 0x3f), basis ((a &&& 0x3) <<< 4 ||| (b &&& 0xf0) >>> 4),
        basis ((b &&& 0xf) <<< 2), 61]
  | [a] => [basis (a >>> 2 &&& 0x3f), basis ((a &&& 0x3) <<< 4), 61, 61]
  | [] => []

/-- The bytes of six bits each. A group that ends after its first is dropped. -/
def joinSix : List UInt8 → List UInt8
  | a :: b :: c :: d :: cur =>
      (a <<< 2 ||| b >>> 4) :: (b <<< 4 ||| c >>> 2) :: (c <<< 6 ||| d) :: joinSix cur
  | [a, b, c] => [a <<< 2 ||| b >>> 4, b <<< 4 ||| c >>> 2]
  | [a, b] => [a <<< 2 ||| b >>> 4]
  | _ => []

/-- The text ends before the first character that is none of the 64. -/
def Base64Decode (encoded : List UInt8) : List UInt8 :=
  joinSix ((encoded.takeWhile fun c => pr2six c ≤ 63).map pr2six)

section Six

variable (a b c : UInt8)

theorem first_of_six :
    (a >>> 2 &&& 0x3f) <<< 2 ||| ((a &&& 0x3) <<< 4 ||| (b &&& 0xf0) >>> 4) >>> 4 = a := by
  apply UInt8.eq_of_toBitVec_eq
  ext i hi
  interval_cases i <;> simp

theorem second_of_six : ((a &&& 0x3) <<< 4 ||| (b &&& 0xf0) >>> 4) <<< 4 |||
    ((b &&& 0xf) <<< 2 ||| (c &&& 0xc0) >>> 6) >>> 2 = b := by
  apply UInt8.eq_of_toBitVec_eq
  ext i hi
  interval_cases i <;> simp

theorem third_of_six :
    ((b &&& 0xf) <<< 2 ||| (c &&& 0xc0) >>> 6) <<< 6 ||| c &&& 0x3f = c := by
  apply UInt8.eq_of_toBitVec_eq
  ext i hi
  interval_cases i <;> simp

theorem and_lt (n : UInt8) : n &&& 0x3f < 64 :=
  Nat.lt_succ_of_le ((UInt8.toNat_and n 0x3f).trans_le Nat.and_le_right)

/-- The six bits that lie across two bytes. -/
theorem middle_lt : (a &&& 0x3) <<< 4 ||| (b &&& 0xf0) >>> 4 < 64 ∧
    (b &&& 0xf) <<< 2 ||| (c &&& 0xc0) >>> 6 < 64 := by
  have hand : ∀ n : UInt8, n &&& 0x3f = n → n < 64 := by
    intro n hn
    rw [← hn]
    exact and_lt n
  constructor <;>
  · refine hand _ (UInt8.eq_of_toBitVec_eq ?_)
    ext i hi
    interval_cases i <;> simp

theorem pr2six_basis_of_lt : ∀ n : Fin 64, pr2six (basis (UInt8.ofNat n)) = UInt8.ofNat n := by
  decide +kernel

theorem pr2six_basis {n : UInt8} (h : n < 64) : pr2six (basis n) = n := by
  have hn := pr2six_basis_of_lt ⟨n.toNat, h⟩
  rwa [UInt8.ofNat_toNat] at hn

end Six

/-- The numbers that are written. -/
def sixes : List UInt8 → List UInt8
  | a :: b :: c :: plain =>
      (a >>> 2 &&& 0x3f) :: ((a &&& 0x3) <<< 4 ||| (b &&& 0xf0) >>> 4) ::
        ((b &&& 0xf) <<< 2 ||| (c &&& 0xc0) >>> 6) :: (c &&& 0x3f) :: sixes plain
  | [a, b] => [a >>> 2 &&& 0x3f, (a &&& 0x3) <<< 4 ||| (b &&& 0xf0) >>> 4, (b &&& 0xf) <<< 2]
  | [a] => [a >>> 2 &&& 0x3f, (a &&& 0x3) <<< 4]
  | [] => []

theorem sixes_lt (plain : List UInt8) : ∀ n ∈ sixes plain, n < 64 := by
  have halone : ∀ n : UInt8, (n &&& 0x3) <<< 4 < 64 ∧ (n &&& 0xf) <<< 2 < 64 := by
    intro n
    obtain ⟨hfirst, -⟩ := middle_lt n 0 0
    obtain ⟨-, hsecond⟩ := middle_lt 0 n 0
    simpa using And.intro hfirst hsecond
  fun_induction sixes plain with
  | case1 a b c plain ih =>
    simp only [List.forall_mem_cons]
    exact ⟨and_lt _, (middle_lt a b c).1, (middle_lt a b c).2, and_lt c, ih⟩
  | case2 a b =>
    simp only [List.forall_mem_cons]
    exact ⟨and_lt _, (middle_lt a b 0).1, (halone b).2, List.forall_mem_nil _⟩
  | case3 a =>
    simp only [List.forall_mem_cons]
    exact ⟨and_lt _, (halone a).1, List.forall_mem_nil _⟩
  | case4 => exact List.forall_mem_nil _

theorem joinSix_sixes (plain : List UInt8) : joinSix (sixes plain) = plain := by
  fun_induction sixes plain with
  | case1 a b c plain ih => rw [joinSix, ih, first_of_six, second_of_six, third_of_six]
  | case2 a b =>
    have hsecond := second_of_six a b 0
    rw [UInt8.zero_and, UInt8.zero_shiftRight, UInt8.or_zero] at hsecond
    rw [joinSix, first_of_six, hsecond]
  | case3 a =>
    have hfirst := first_of_six a 0
    rw [UInt8.zero_and, UInt8.zero_shiftRight, UInt8.or_zero] at hfirst
    rw [joinSix, hfirst]
  | case4 => rfl

theorem base64Encode_eq (plain : List UInt8) :
    ∃ k, Base64Encode plain = (sixes plain).map basis ++ List.replicate k 61 := by
  fun_induction sixes plain with
  | case1 a b c plain ih =>
    obtain ⟨k, hk⟩ := ih
    exact ⟨k, by rw [Base64Encode, hk]; rfl⟩
  | case2 a b => exact ⟨1, rfl⟩
  | case3 a => exact ⟨2, rfl⟩
  | case4 => exact ⟨0, rfl⟩

/-- What was encoded is decoded. -/
theorem base64Decode_encode (plain : List UInt8) : Base64Decode (Base64Encode plain) = plain := by
  obtain ⟨k, hk⟩ := base64Encode_eq plain
  have hsix : ∀ n ∈ sixes plain, pr2six (basis n) = n :=
    fun n hn => pr2six_basis (sixes_lt plain n hn)
  have htaken : ∀ c ∈ (sixes plain).map basis, decide (pr2six c ≤ 63) = true := by
    intro c hc
    obtain ⟨n, hn, rfl⟩ := List.mem_map.mp hc
    rw [hsix n hn, decide_eq_true_iff]
    exact Nat.le_of_lt_succ (sixes_lt plain n hn)
  have hpad : (List.replicate k (61 : UInt8)).takeWhile (fun c => pr2six c ≤ 63) = [] := by
    cases k with
    | zero => rfl
    | succ k => rfl
  have hread : (sixes plain).map (pr2six ∘ basis) = sixes plain :=
    (List.map_congr_left hsix).trans (List.map_id' _)
  rw [Base64Decode, hk, List.takeWhile_append_of_pos htaken, hpad, List.append_nil, List.map_map,
    hread, joinSix_sixes]

end Codec
