import Mathlib.Data.List.Induction
import SparxRobot.Machine.Run

/-! Registers: parts of a state that some moments write and every other moment keeps. What
a register holds is the latest write there was. -/
namespace Machine

section LastWrite

variable {α β γ : Type*}

/-- The latest of the values a history writes. -/
def lastWrite (writes : α → Option β) (h : List α) : Option β := (h.filterMap writes).getLast?

@[simp] theorem lastWrite_nil (writes : α → Option β) : lastWrite writes [] = none := rfl

theorem lastWrite_append (writes : α → Option β) (h t : List α) :
    lastWrite writes (h ++ t) = (lastWrite writes t).or (lastWrite writes h) := by
  simp [lastWrite, List.getLast?_append]

theorem lastWrite_append_singleton (writes : α → Option β) (h : List α) (a : α) :
    lastWrite writes (h ++ [a]) = (writes a).or (lastWrite writes h) := by
  cases ha : writes a <;> simp [lastWrite, ha]

/-- Writes that are made from others are latest when those are. -/
theorem lastWrite_map (writes : α → Option β) (f : β → γ) (h : List α) :
    lastWrite (fun a => (writes a).map f) h = (lastWrite writes h).map f := by
  induction h using List.reverseRecOn with
  | nil => rfl
  | append_singleton h a ih =>
    rw [lastWrite_append_singleton, lastWrite_append_singleton, ih]
    cases writes a <;> rfl

theorem lastWrite_map_list (writes : β → Option γ) (f : α → β) (h : List α) :
    lastWrite writes (h.map f) = lastWrite (fun a => writes (f a)) h := by
  simp [lastWrite, List.filterMap_map]

/-- Without a write in the history nothing was ever written. -/
theorem lastWrite_eq_none {writes : α → Option β} {h : List α} :
    lastWrite writes h = none ↔ ∀ a ∈ h, writes a = none := by
  simp [lastWrite]

/-- Moments without a write leave the latest one as it is. -/
theorem lastWrite_append_of_none {writes : α → Option β} (h : List α) {t : List α}
    (ht : ∀ a ∈ t, writes a = none) : lastWrite writes (h ++ t) = lastWrite writes h := by
  rw [lastWrite_append, lastWrite_eq_none.mpr ht, Option.none_or]

end LastWrite

section Register

variable {σ ι ω β : Type*} {step : Step σ ι ω}

/-- The moments with a write set the field, and all others keep it. -/
def Register (step : Step σ ι ω) (field : σ → β) (writes : Moment σ ι ω → Option β) : Prop :=
  ∀ s i, field (step s i).1 = (writes (moment step s i)).getD (field s)

/-- The register rule: at every point of every run a register holds the latest write, or
what it started with. -/
theorem Register.value {field : σ → β} {writes : Moment σ ι ω → Option β}
    (hr : Register step field writes) {s : σ} {is : List ι} {h t : List (Moment σ ι ω)}
    {m : Moment σ ι ω} (ht : trace step s is = h ++ m :: t) :
    field m.pre = (lastWrite writes h).getD (field s) := by
  let Inv : List (Moment σ ι ω) → σ → Prop := fun h u =>
    field u = (lastWrite writes h).getD (field s)
  have hstep : ∀ h u i, Inv h u → True → Inv (h ++ [moment step u i]) (step u i).1 := by
    intro h u i hu _
    simp only [Inv, lastWrite_append_singleton] at hu ⊢
    rw [hr u i, hu]
    cases writes (moment step u i) <;> rfl
  obtain ⟨hinv, -⟩ := history_invariant hstep (show Inv [] s from rfl)
    fun (_ : Moment σ ι ω) _ => trivial
  exact hinv h m t ht

/-- The same at the end of a run, where the inputs decide what is written. -/
theorem Register.final {field : σ → β} {writes : ι → Option β}
    (hr : Register step field fun m => writes m.input) (s : σ) (is : List ι) :
    field (Machine.final step s is) = (lastWrite writes is).getD (field s) := by
  induction is generalizing s with
  | nil => rfl
  | cons i is ih =>
    rw [Machine.final, ih, hr s i, ← List.singleton_append, lastWrite_append]
    cases hw : lastWrite writes is <;> cases hi : writes i <;> simp [lastWrite, hi]

end Register

end Machine
