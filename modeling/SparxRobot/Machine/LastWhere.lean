import Mathlib.Data.List.Basic

/-! Histories that grow at their end: the latest element that satisfies a test, with what
came after it, where a split falls, and each element with what came before it. -/
namespace Machine

variable {α β : Type*}

def lastWhere (p : α → Bool) : List α → Option (α × List α)
  | [] => none
  | a :: as =>
      match lastWhere p as with
      | some r => some r
      | none => if p a then some (a, as) else none

@[simp] theorem lastWhere_nil (p : α → Bool) : lastWhere p [] = none := rfl

/-- Appending one element either makes it the latest or extends what came after. -/
theorem lastWhere_append_singleton (p : α → Bool) (as : List α) (a : α) :
    lastWhere p (as ++ [a]) =
      if p a then some (a, []) else (lastWhere p as).map fun r => (r.1, r.2 ++ [a]) := by
  induction as with
  | nil => by_cases ha : p a <;> simp [lastWhere, ha]
  | cons b as ih =>
    by_cases ha : p a
    · simp [lastWhere, ih, ha]
    · simp only [List.cons_append, lastWhere, ih, ha, Bool.false_eq_true, ↓reduceIte]
      cases lastWhere p as with
      | some r => rfl
      | none => by_cases hb : p b <;> simp [hb]

theorem lastWhere_append_hit {p : α → Bool} {as : List α} {a : α} (ha : p a = true) :
    lastWhere p (as ++ [a]) = some (a, []) := by
  rw [lastWhere_append_singleton, if_pos ha]

theorem lastWhere_append_miss {p : α → Bool} {as : List α} {a : α} (ha : p a = false) :
    lastWhere p (as ++ [a]) = (lastWhere p as).map fun r => (r.1, r.2 ++ [a]) := by
  rw [lastWhere_append_singleton, if_neg (by simp [ha])]

theorem lastWhere_split {p : α → Bool} {as : List α} {a : α} {after : List α}
    (h : lastWhere p as = some (a, after)) :
    ∃ before, as = before ++ a :: after ∧ p a = true := by
  induction as with
  | nil => simp at h
  | cons b as ih =>
    simp only [lastWhere] at h
    cases hl : lastWhere p as with
    | some r =>
      simp only [hl, Option.some.injEq] at h
      obtain ⟨before, heq, hp⟩ := ih (hl.trans (congrArg some h))
      exact ⟨b :: before, by rw [heq]; rfl, hp⟩
    | none =>
      simp only [hl] at h
      split at h
      · next hb =>
        obtain ⟨rfl, rfl⟩ := Prod.mk.inj (Option.some.inj h)
        exact ⟨[], rfl, hb⟩
      · simp at h

/-- What comes before does not change what is latest. -/
theorem lastWhere_append_of_some {p : α → Bool} {as bs : List α} {r : α × List α}
    (h : lastWhere p bs = some r) : lastWhere p (as ++ bs) = some r := by
  induction as with
  | nil => exact h
  | cons a as ih => simp only [List.cons_append, lastWhere, ih]

/-- Under another name for each element the same one is latest. -/
theorem lastWhere_map (p : β → Bool) (f : α → β) (as : List α) :
    lastWhere p (as.map f) =
      (lastWhere (fun a => p (f a)) as).map fun r => (f r.1, r.2.map f) := by
  induction as with
  | nil => rfl
  | cons a as ih =>
    simp only [List.map_cons, lastWhere, ih]
    cases lastWhere (fun a => p (f a)) as with
    | some r => rfl
    | none => by_cases ha : p (f a) <;> simp [ha]

theorem lastWhere_congr {p q : α → Bool} {as : List α} (h : ∀ a ∈ as, p a = q a) :
    lastWhere p as = lastWhere q as := by
  induction as with
  | nil => rfl
  | cons a as ih =>
    obtain ⟨ha, has⟩ := List.forall_mem_cons.mp h
    simp only [lastWhere, ih has, ha]

/-- Where a split of a history that was just extended falls: at its last element, or
inside the history before. -/
theorem append_singleton_split {as before after : List α} {a b : α}
    (h : as ++ [a] = before ++ b :: after) :
    (after = [] ∧ as = before ∧ a = b) ∨
      ∃ rest, after = rest ++ [a] ∧ as = before ++ b :: rest := by
  rcases List.eq_nil_or_concat after with rfl | ⟨rest, c, rfl⟩
  · obtain ⟨has, hlast⟩ := List.append_inj' h rfl
    exact .inl ⟨rfl, has, by simpa using hlast⟩
  · rw [List.concat_eq_append, ← List.cons_append, ← List.append_assoc] at h
    obtain ⟨has, hlast⟩ := List.append_inj' h rfl
    obtain rfl : a = c := by simpa using hlast
    exact .inr ⟨rest, List.concat_eq_append, has⟩

section WithPast

/-- Each element with what came before it. -/
def withPast : List α → List (List α × α)
  | [] => []
  | a :: as => ([], a) :: (withPast as).map fun x => (a :: x.1, x.2)

@[simp] theorem withPast_nil : withPast ([] : List α) = [] := rfl

@[simp] theorem map_snd_withPast (as : List α) : (withPast as).map Prod.snd = as := by
  induction as with
  | nil => rfl
  | cons a as ih => simpa [withPast, Function.comp_def] using ih

theorem withPast_map (f : α → β) (as : List α) :
    withPast (as.map f) = (withPast as).map fun x => (x.1.map f, f x.2) := by
  induction as with
  | nil => rfl
  | cons a as ih => simp [withPast, ih, Function.comp_def]

/-- The past of an element is what a split at it leaves on the left. -/
theorem split_of_mem_withPast {as before : List α} {a : α} (h : (before, a) ∈ withPast as) :
    ∃ after, as = before ++ a :: after := by
  induction as generalizing before with
  | nil => simp at h
  | cons b as ih =>
    rcases List.mem_cons.mp h with h | h
    · obtain ⟨rfl, rfl⟩ := Prod.mk.inj h
      exact ⟨as, rfl⟩
    · obtain ⟨⟨past, c⟩, hmem, heq⟩ := List.mem_map.mp h
      obtain ⟨rfl, rfl⟩ := Prod.mk.inj heq
      obtain ⟨after, rfl⟩ := ih hmem
      exact ⟨after, rfl⟩

end WithPast

end Machine
