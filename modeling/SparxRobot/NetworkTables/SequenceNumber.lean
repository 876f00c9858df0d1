import Mathlib.Logic.Function.Iterate
import Mathlib.Tactic.SplitIfs

/-! The number of the last change of an entry. It has 16 bits, and of two numbers the later one
is the one that is less than half of the circle ahead. -/
namespace SparxRobot.NetworkTables

structure SequenceNumber where
  value : ℕ := 0
  deriving DecidableEq

namespace SequenceNumber

/-- `++seq_num` -/
def next (s : SequenceNumber) : SequenceNumber :=
  if s.value + 1 > 0xffff then ⟨0⟩ else ⟨s.value + 1⟩

/-- `lhs < rhs` -/
def less (lhs rhs : SequenceNumber) : Bool :=
  if lhs.value < rhs.value then rhs.value - lhs.value < 1 <<< 15
  else if lhs.value > rhs.value then lhs.value - rhs.value > 1 <<< 15
  else false

/-- `lhs <= rhs` -/
def lessEqual (lhs rhs : SequenceNumber) : Bool := lhs = rhs ∨ lhs.less rhs

variable {s : SequenceNumber}

theorem not_lessEqual_of_less {s' : SequenceNumber} (h : s.less s') : ¬ s'.lessEqual s := by
  unfold lessEqual less at *
  rw [decide_eq_true_iff]
  rintro (rfl | hless)
  · simp at h
  · split_ifs at h hless <;> simp at h hless <;> omega

theorem lessEqual_of_le {m n : ℕ} (hle : m ≤ n) (hnear : n < m + 32768) :
    (mk m).lessEqual ⟨n⟩ := by
  unfold lessEqual less
  rw [decide_eq_true_iff]
  obtain rfl | hlt := Nat.eq_or_lt_of_le hle
  · exact .inl rfl
  · rw [if_pos hlt]
    exact .inr (decide_eq_true (by dsimp only; omega))

theorem not_lessEqual_succ (n : ℕ) : ¬ (mk (n + 1)).lessEqual ⟨n⟩ := by
  refine not_lessEqual_of_less ?_
  unfold less
  rw [if_pos n.lt_succ_self]
  exact decide_eq_true (by dsimp only; omega)

theorem next_value (h : s.value < 65536) : s.next.value = (s.value + 1) % 65536 := by
  unfold next
  split <;> dsimp only <;> omega

theorem next_lt : s.next.value < 65536 := by
  unfold next
  split <;> dsimp only <;> omega

theorem iterate_next_value (h : s.value < 65536) (n : ℕ) :
    (next^[n] s).value = (s.value + n) % 65536 := by
  induction n with
  | zero => exact (Nat.mod_eq_of_lt h).symm
  | succ n ih =>
    rw [Function.iterate_succ_apply', next_value (by omega), ih]
    omega

theorem iterate_next_less (h : s.value < 65536) (n : ℕ) :
    (next^[n] s).less s ↔ 32768 < n % 65536 := by
  unfold less
  rw [iterate_next_value h]
  split_ifs <;> simp only [decide_eq_true_eq, false_iff] <;> omega

theorem iterate_next_lessEqual (h : s.value < 65536) (n : ℕ) :
    (next^[n] s).lessEqual s ↔ n % 65536 = 0 ∨ 32768 < n % 65536 := by
  have heq : next^[n] s = s ↔ n % 65536 = 0 := by
    constructor
    · intro hs
      have hvalue := iterate_next_value h n
      rw [hs] at hvalue
      omega
    · intro hn
      have hvalue := iterate_next_value h n
      have hsame : (next^[n] s).value = s.value := by omega
      cases hs : next^[n] s
      cases s
      simp_all
  unfold lessEqual
  rw [decide_eq_true_iff, heq, iterate_next_less h]

end SequenceNumber

end SparxRobot.NetworkTables
