import Mathlib.Logic.Relation
import Mathlib.Order.Nat

/-! Runs with their moments. A step relation says what may happen next; at a moment of a trace a
step is taken, or nothing happens. -/
namespace Replication

variable {σ : Type} {step : σ → σ → Prop} {a b : σ}

def IsTrace (step : σ → σ → Prop) (trace : ℕ → σ) : Prop :=
  ∀ n, trace (n + 1) = trace n ∨ step (trace n) (trace (n + 1))

theorem IsTrace.run {trace : ℕ → σ} (h : IsTrace step trace) {m n : ℕ} (hmn : m ≤ n) :
    Relation.ReflTransGen step (trace m) (trace n) := by
  induction n, hmn using Nat.le_induction with
  | base => exact .refl
  | succ n _ ih =>
    obtain hsame | hstep := h n
    · rw [hsame]
      exact ih
    · exact ih.tail hstep

/-- Every run is part of a trace. -/
theorem exists_trace (h : Relation.ReflTransGen step a b) :
    ∃ trace t, IsTrace step trace ∧ trace 0 = a ∧ trace t = b := by
  induction h with
  | refl => exact ⟨fun _ => a, 0, fun _ => .inl rfl, rfl, rfl⟩
  | @tail b c _ hstep ih =>
    obtain ⟨trace, t, htrace, hstart, rfl⟩ := ih
    refine ⟨fun n => if n ≤ t then trace n else c, t + 1, fun n => ?_, hstart, if_neg (by omega)⟩
    dsimp only
    obtain hlt | rfl | hgt := lt_trichotomy n t
    · rw [if_pos (Nat.succ_le_of_lt hlt), if_pos hlt.le]
      exact htrace n
    · rw [if_neg (Nat.not_succ_le_self n), if_pos (le_refl n)]
      exact .inr hstep
    · rw [if_neg (by omega), if_neg (by omega)]
      exact .inl rfl

end Replication
