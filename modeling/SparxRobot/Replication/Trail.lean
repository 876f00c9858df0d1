import Mathlib.Order.Basic

/-! Versions on their way from one node to the next. A version that is followed by a later one
may be left out. -/
namespace Replication

variable {α : Type} [Preorder α]

/-- The versions between a reader and what it reads from, the oldest first. -/
def Trail : α → List α → α → Prop
  | a, [], b => a = b
  | a, x :: l, b => a ≤ x ∧ Trail x l b

variable {a b c x y : α} {l l' : List α}

theorem trail_append : Trail a (l ++ l') c ↔ ∃ b, Trail a l b ∧ Trail b l' c := by
  induction l generalizing a with
  | nil => simp [Trail]
  | cons x l ih =>
    rw [List.cons_append, Trail, ih]
    constructor
    · rintro ⟨hle, b, hl, hl'⟩
      exact ⟨b, ⟨hle, hl⟩, hl'⟩
    · rintro ⟨b, ⟨hle, hl⟩, hl'⟩
      exact ⟨hle, b, hl, hl'⟩

theorem Trail.le (h : Trail a l b) : a ≤ b := by
  induction l generalizing a with
  | nil => exact le_of_eq h
  | cons x l ih => exact h.1.trans (ih h.2)

theorem Trail.le_of_mem (h : Trail a l b) (hx : x ∈ l) : x ≤ b := by
  obtain ⟨front, back, rfl⟩ := List.append_of_mem hx
  obtain ⟨c, -, -, hrest⟩ := trail_append.mp h
  exact hrest.le

theorem Trail.push (h : Trail a l b) (hle : b ≤ c) : Trail a (l ++ [c]) c :=
  trail_append.mpr ⟨b, h, hle, rfl⟩

/-- Versions before a later one are not needed. -/
theorem Trail.skip {p : List α} (h : Trail a (l ++ (p ++ y :: l')) b) : Trail a (l ++ y :: l') b := by
  obtain ⟨c, hl, hrest⟩ := trail_append.mp h
  obtain ⟨d, hp, hy, hl'⟩ := trail_append.mp hrest
  exact trail_append.mpr ⟨c, hl, hp.le.trans hy, hl'⟩

end Replication
