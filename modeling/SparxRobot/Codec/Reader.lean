import Mathlib.Data.List.Basic

/-! Readers of a stream. A reader takes symbols off the front and returns a value, or fails.
What it takes and what it returns are composed along `>>=`. -/
namespace Codec

abbrev Reader (σ ε : Type) := StateT (List σ) (Except ε)

variable {σ ε α β : Type}

/-- The next `n` symbols. -/
def take (ended : ε) (n : ℕ) : Reader σ ε (List σ) := fun s =>
  if n ≤ s.length then .ok (s.take n, s.drop n) else .error ended

def fail (e : ε) : Reader σ ε α := fun _ => .error e

/-- One value after the other. -/
def many (r : Reader σ ε α) : ℕ → Reader σ ε (List α)
  | 0 => pure []
  | n + 1 => do
      let a ← r
      let as ← many r n
      return a :: as

/-- The reader takes `w` off every stream that starts with it, and returns `a`. -/
def Takes (r : Reader σ ε α) (w : List σ) (a : α) : Prop :=
  ∀ rest, r.run (w ++ rest) = .ok (a, rest)

/-- What the reader returns satisfies `P`. -/
def Returns (r : Reader σ ε α) (P : α → Prop) : Prop :=
  ∀ s a rest, r.run s = .ok (a, rest) → P a

variable {r : Reader σ ε α} {f : α → Reader σ ε β} {w w' s : List σ} {a : α} {b : β} {n m : ℕ}

/-- A sequence that succeeds is a success after a success. -/
theorem run_bind_eq_ok {rest : List σ} : (r >>= f).run s = .ok (b, rest) ↔
    ∃ a s', r.run s = .ok (a, s') ∧ (f a).run s' = .ok (b, rest) := by
  rw [StateT.run_bind]
  cases hr : r.run s with
  | error e => simp [bind, Except.bind]
  | ok p =>
    obtain ⟨a, s'⟩ := p
    simp [bind, Except.bind]

section Takes

theorem takes_pure : Takes (pure a : Reader σ ε α) [] a := fun _ => rfl

theorem Takes.bind (h : Takes r w a) (h' : Takes (f a) w' b) : Takes (r >>= f) (w ++ w') b := by
  intro rest
  rw [List.append_assoc, run_bind_eq_ok]
  exact ⟨a, w' ++ rest, h _, h' rest⟩

/-- The last reader of a sequence only arranges what was read. -/
theorem Takes.bind_pure {g : α → β} (h : Takes r w a) (hb : g a = b) :
    Takes (do let a ← r; return g a) w b := by
  intro rest
  rw [run_bind_eq_ok]
  exact ⟨a, rest, h rest, by rw [hb]; rfl⟩

theorem takes_take (ended : ε) (w : List σ) : Takes (take ended w.length) w w := by
  intro rest
  simp [take, StateT.run]

theorem Takes.many {γ : Type} {l : List γ} {word : γ → List σ} {value : γ → α}
    (h : ∀ c ∈ l, Takes r (word c) (value c)) :
    Takes (many r l.length) (l.flatMap word) (l.map value) := by
  induction l with
  | nil => exact takes_pure
  | cons c l ih =>
    have hrest := ih fun d hd => h d (.tail _ hd)
    exact (h c (.head _)).bind (hrest.bind_pure rfl)

end Takes

section Returns

variable {P : α → Prop} {Q : β → Prop}

theorem returns_any : Returns r fun _ => True := fun _ _ _ _ => trivial

theorem returns_pure (h : P a) : Returns (pure a : Reader σ ε α) P := by
  rintro s _ _ ⟨⟩
  exact h

theorem returns_fail (e : ε) : Returns (fail e : Reader σ ε α) P := by
  rintro s _ _ ⟨⟩

theorem Returns.bind (h : Returns r P) (h' : ∀ a, P a → Returns (f a) Q) :
    Returns (r >>= f) Q := by
  intro s b rest hrun
  obtain ⟨a, s', hr, hf⟩ := run_bind_eq_ok.mp hrun
  exact h' a (h s a s' hr) s' b rest hf

theorem Returns.mono {P' : α → Prop} (h : Returns r P) (himp : ∀ a, P a → P' a) : Returns r P' :=
  fun s a rest hrun => himp a (h s a rest hrun)

theorem returns_take (ended : ε) :
    Returns (take ended n : Reader σ ε (List σ)) fun w => w.length = n := by
  intro s a rest hrun
  simp only [take, StateT.run] at hrun
  split at hrun
  · next hle =>
    obtain ⟨rfl, -⟩ := Prod.mk.inj (Except.ok.inj hrun)
    exact List.length_take_of_le hle
  · nomatch hrun

theorem Returns.many (h : Returns r P) :
    Returns (many r n) fun l => l.length = n ∧ ∀ a ∈ l, P a := by
  induction n with
  | zero => exact returns_pure (by simp)
  | succ n ih =>
    refine h.bind fun a ha => ih.bind fun l hl => returns_pure ?_
    rw [List.length_cons, hl.1, List.forall_mem_cons]
    exact ⟨rfl, ha, hl.2⟩

end Returns

end Codec
