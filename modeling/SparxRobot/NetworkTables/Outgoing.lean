import Mathlib.Logic.Function.Basic
import Mathlib.Data.List.GetD
import Mathlib.Data.List.ReduceOption
import SparxRobot.NetworkTables.Connection

/-! What a batch says. The connection merges messages; a connection that sends them as they come
says the same of every entry. -/
namespace SparxRobot.NetworkTables
open Message NetworkConnection

namespace Message

/-- The entry a message is about. -/
def entry : Message → Option ℕ
  | entryAssign _ id _ _ _ | entryUpdate id _ _ | flagsUpdate id _ | entryDelete id => some id
  | _ => none

def slot : Message → Option Slot
  | entryAssign .. | entryUpdate .. => some .first
  | flagsUpdate .. => some .second
  | _ => none

/-- CLEAR_ENTRIES concerns every entry. -/
def concerns (id : ℕ) (m : Message) : Bool := m = clearEntries ∨ m.entry = some id

end Message

/-- What was said of an entry: the deletions, and what was said behind the last of them. -/
structure Latest where
  kept : List Message := []
  slot : Slot → Option Message := fun _ => none

namespace Latest

/-- The messages of unassigned ids are all kept. -/
def next (id : ℕ) (l : Latest) (m : Message) : Latest :=
  if id = 0xffff then { l with kept := l.kept ++ [m] }
  else match m.slot with
    | some s => { l with slot := Function.update l.slot s (some (merge id (l.slot s) m)) }
    | none => { kept := l.kept ++ [m] }

def pending (f : Slot → Option Message) : List Message := (f .first).toList ++ (f .second).toList

end Latest

/-- What was said of the entries, and the messages that are about none. -/
structure Said where
  latest : ℕ → Latest := fun _ => {}
  other : List Message := []

namespace Said

def set (said : Said) (id : ℕ) (l : Latest) : Said :=
  { said with latest := Function.update said.latest id l }

theorem latest_set (said : Said) (id id' : ℕ) (l : Latest) :
    (said.set id l).latest id' = if id' = id then l else said.latest id' :=
  Function.update_apply ..

def next (said : Said) (m : Message) : Said :=
  if m = clearEntries then { said with latest := fun _ => { kept := [m] } }
  else match m.entry with
    | none => { said with other := said.other ++ [m] }
    | some id => said.set id ((said.latest id).next id m)

def of (msgs : List Message) : Said := msgs.foldl next {}

end Said

/-- The messages of a batch that satisfy `P`. -/
def those (P : Message → Bool) (batch : List (Option Message)) : List Message :=
  batch.reduceOption.filter P

/-- A batch says of every entry what the messages said: its deletions in order, and behind them
its last value and its last flags. The other messages are there in order. -/
structure Represents (batch : List (Option Message)) (said : Said) : Prop where
  entries : ∀ id, ∃ rest, those (concerns id) batch = (said.latest id).kept ++ rest ∧
    rest.Perm (Latest.pending (said.latest id).slot)
  others : those (fun m => !knockedOut m) batch = said.other

section Lists

variable {α : Type}

theorem split_at {l : List α} {p : ℕ} {a : α} (h : l[p]? = some a) :
    ∃ front back, l = front ++ a :: back ∧ ∀ b, l.set p b = front ++ b :: back := by
  obtain ⟨hp, rfl⟩ := List.getElem?_eq_some_iff.mp h
  refine ⟨l.take p, l.drop (p + 1), ?_, fun b => ?_⟩
  · rw [List.getElem_cons_drop, List.take_append_drop]
  · rw [List.set_eq_take_append_cons_drop, if_pos hp]

theorem split_behind {kept rest front back : List α} {a : α}
    (h : kept ++ rest = front ++ a :: back) (ha : a ∉ kept) :
    ∃ front', front = kept ++ front' ∧ rest = front' ++ a :: back := by
  obtain ⟨front', hfront, hrest⟩ | ⟨tail, hkept, hcons⟩ := List.append_eq_append_iff.mp h
  · exact ⟨front', hfront, hrest⟩
  · obtain ⟨rfl, hrest⟩ | ⟨tail', rfl, -⟩ := List.append_eq_cons_iff.mp hcons.symm
    · exact ⟨[], by rw [hkept, List.append_nil, List.append_nil], hrest⟩
    · exact absurd (by simp [hkept]) ha

end Lists

section About
open Latest

variable {batch : List (Option Message)} {m : Message} {s s' : Slot} {id id' : ℕ}
  {x : Option Message}

def Slot.other : Slot → Slot
  | .first => .second
  | .second => .first

def Fits (id : ℕ) (s : Slot) (m : Message) : Prop := m.entry = some id ∧ m.slot = some s

theorem perm_pending (f : Slot → Option Message) (s : Slot) :
    (pending f).Perm ((f s).toList ++ (f (Slot.other s)).toList) := by
  cases s with
  | first => exact .refl _
  | second => exact List.perm_append_comm

theorem pending_update (f : Slot → Option Message) (s : Slot) (x : Option Message) :
    (pending (Function.update f s x)).Perm (x.toList ++ (f (Slot.other s)).toList) := by
  have hother : Slot.other s ≠ s := by cases s <;> decide
  have hperm := perm_pending (Function.update f s x) s
  rwa [Function.update_self, Function.update_of_ne hother] at hperm

theorem those_append (P : Message → Bool) (front back : List (Option Message)) :
    those P (front ++ back) = those P front ++ those P back := by
  rw [those, List.reduceOption_append, List.filter_append]
  rfl

theorem those_cons (P : Message → Bool) (x : Option Message) (back : List (Option Message)) :
    those P (x :: back) = x.toList.filter P ++ those P back := by
  cases x with
  | none => rfl
  | some m =>
    rw [those, List.reduceOption_cons_of_some, ← List.singleton_append, List.filter_append]
    rfl

theorem ne_clear_of_entry (h : m.entry = some id) : m ≠ clearEntries := by
  rintro rfl
  nomatch h

theorem concerns_of_entry (h : m.entry = some id) : concerns id' m ↔ id' = id := by
  simp [concerns, ne_clear_of_entry h, h, eq_comm]

theorem filter_concerns (hx : ∀ m ∈ x, m.entry = some id) :
    x.toList.filter (concerns id') = if id' = id then x.toList else [] := by
  cases x with
  | none => simp
  | some m =>
    have hconcerns : concerns id' m ↔ id' = id := concerns_of_entry (hx m rfl)
    split
    · next heq => simp [hconcerns.mpr heq]
    · next hne => simp [Bool.not_eq_true _ ▸ mt hconcerns.mp hne]

theorem knockedOut_of_entry (h : m.entry = some id) : knockedOut m = true := by
  cases m <;> first | rfl | nomatch h

theorem filter_not_knockedOut (hx : ∀ m ∈ x, m.entry = some id) :
    (x.toList.filter fun m => !knockedOut m) = [] := by
  cases x with
  | none => rfl
  | some m => simp [knockedOut_of_entry (hx m rfl)]

end About

/-- Puts another message, or none, in the place of one. -/
def Said.put (said : Said) (id : ℕ) (s : Slot) (x : Option Message) : Said :=
  said.set id { said.latest id with slot := Function.update (said.latest id).slot s x }

section Put
open Latest

variable {batch : List (Option Message)} {said : Said} {m : Message} {s : Slot} {id p : ℕ}
  {x : Option Message}

theorem put_entries {front back rest : List Message} {l : Latest}
    (hentries : l.kept ++ rest = front ++ m :: back) (hrest : rest.Perm (pending l.slot))
    (hm : l.slot s = some m) (hkept : m ∉ l.kept) :
    ∃ rest', front ++ (x.toList ++ back) = l.kept ++ rest' ∧
      rest'.Perm (pending (Function.update l.slot s x)) := by
  obtain ⟨front', rfl, rfl⟩ := split_behind hentries hkept
  refine ⟨front' ++ (x.toList ++ back), List.append_assoc .., ?_⟩
  have hothers : (front' ++ back).Perm (l.slot (Slot.other s)).toList := by
    refine List.Perm.cons_inv (a := m) ((List.perm_middle.symm.trans hrest).trans ?_)
    have hperm := perm_pending l.slot s
    rwa [hm] at hperm
  have hfront : (front' ++ (x.toList ++ back)).Perm (x.toList ++ (front' ++ back)) :=
    List.perm_append_comm_assoc ..
  exact (hfront.trans (hothers.append_left _)).trans (pending_update l.slot s x).symm

theorem Represents.put (h : Represents batch said) (hp : batch[p]? = some (some m))
    (hm : (said.latest id).slot s = some m) (hfits : Fits id s m)
    (hkept : m ∉ (said.latest id).kept) (hx : ∀ m ∈ x, Fits id s m) :
    Represents (batch.set p x) (said.put id s x) := by
  obtain ⟨front, back, rfl, hset⟩ := split_at hp
  have hold : ∀ m' ∈ some m, m'.entry = some id := by
    rintro _ ⟨⟩
    exact hfits.1
  have hnew : ∀ m' ∈ x, m'.entry = some id := fun m' hm' => (hx m' hm').1
  rw [hset]
  constructor
  · intro id'
    obtain ⟨rest, hentries, hrest⟩ := h.entries id'
    rw [those_append, those_cons, filter_concerns hold] at hentries
    rw [those_append, those_cons, filter_concerns hnew]
    by_cases heq : id' = id
    · subst heq
      rw [if_pos rfl] at hentries
      rw [if_pos rfl, Said.put, Said.latest_set, if_pos rfl]
      exact put_entries hentries.symm hrest hm hkept
    · rw [if_neg heq] at hentries
      rw [if_neg heq, Said.put, Said.latest_set, if_neg heq]
      exact ⟨rest, hentries, hrest⟩
  · have hothers := h.others
    rw [those_append, those_cons, filter_not_knockedOut hold] at hothers
    rw [those_append, those_cons, filter_not_knockedOut hnew]
    exact hothers

end Put

/-- The table knows where the pending messages are, and knows of no others. -/
structure Holds (c : NetworkConnection) (said : Said) : Prop where
  represents : Represents c.pending_outgoing said
  empty : ∀ id s, (said.latest id).slot s = none → c.position s id = 0
  there : ∀ id s m, (said.latest id).slot s = some m → ∃ p, c.position s id = p + 1 ∧
    c.pending_outgoing[p]? = some (some m)
  fits : ∀ id s m, (said.latest id).slot s = some m → Fits id s m
  kept : ∀ id m, id ≠ 0xffff → m ∈ (said.latest id).kept → m.slot = none
  unassigned : ∀ s, (said.latest 0xffff).slot s = none

section Table

variable (u : List (ℕ × ℕ)) (s s' : Slot) (id id' n : ℕ)

theorem getD_modify (h : id < u.length) : s'.get ((u.modify id (s.put n)).getD id' (0, 0)) =
    if s' = s ∧ id' = id then n else s'.get (u.getD id' (0, 0)) := by
  rw [List.getD_eq_getElem?_getD, List.getD_eq_getElem?_getD, List.getElem?_modify]
  by_cases hid : id' = id
  · subst hid
    rw [List.getElem?_eq_getElem h]
    cases s <;> cases s' <;> simp [Slot.get, Slot.put]
  · have hne : id ≠ id' := Ne.symm hid
    simp [hid, hne]

theorem getD_resize (h : u.length ≤ n) : (resize n u).getD id (0, 0) = u.getD id (0, 0) := by
  rw [resize, List.take_of_length_le h]
  rcases Nat.lt_or_ge id u.length with hlt | hge
  · rw [List.getD_append _ _ _ _ hlt]
  · rw [List.getD_append_right _ _ _ _ hge, List.getD_eq_default _ _ hge]
    rw [List.getD_eq_getElem?_getD, List.getElem?_replicate]
    split <;> rfl

theorem length_resize (h : u.length ≤ n) : (resize n u).length = n := by
  rw [resize, List.take_of_length_le h, List.length_append, List.length_replicate]
  omega

end Table

section Operations

variable {c c' : NetworkConnection} {said : Said} {m m' : Message} {s s' : Slot} {id id' p : ℕ}
  {x : Option Message}

theorem position_remember : (c.remember s id m).position s' id' =
    if s' = s ∧ id' = id then c.pending_outgoing.length + 1 else c.position s' id' := by
  unfold remember position push_back
  dsimp only
  split
  · next hge =>
    have hle : c.pending_update.length ≤ id + 1 := Nat.le_succ_of_le hge
    rw [getD_modify _ _ _ _ _ _ (by rw [length_resize _ _ hle]; omega), getD_resize _ _ _ hle]
  · next hlt => rw [getD_modify _ _ _ _ _ _ (by omega)]

theorem Holds.lt_of_slot (h : Holds c said) (hm : (said.latest id).slot s = some m) :
    c.position s id - 1 < c.pending_outgoing.length ∧ c.position s id ≠ 0 ∧
      c.pending_outgoing[c.position s id - 1]? = some (some m) := by
  obtain ⟨p, hp, hget⟩ := h.there id s m hm
  rw [hp, Nat.add_sub_cancel]
  exact ⟨(List.getElem?_eq_some_iff.mp hget).1, p.succ_ne_zero, hget⟩

theorem Holds.not_mem_kept (h : Holds c said) (hm : (said.latest id).slot s = some m) :
    m ∉ (said.latest id).kept := by
  intro hkept
  have hid : id ≠ 0xffff := by
    rintro rfl
    simp [h.unassigned] at hm
  have hslot := (h.fits id s m hm).2
  rw [h.kept id m hid hkept] at hslot
  nomatch hslot

/-- The positions of different messages are different. -/
theorem Holds.position_ne (h : Holds c said) (hm : (said.latest id).slot s = some m)
    (hm' : (said.latest id').slot s' = some m') (hne : ¬ (s' = s ∧ id' = id)) :
    c.position s' id' ≠ c.position s id := by
  intro heq
  obtain ⟨p, hp, hget⟩ := h.there id s m hm
  obtain ⟨p', hp', hget'⟩ := h.there id' s' m' hm'
  obtain rfl : p = p' := by omega
  obtain rfl : m' = m := by simpa [hget'] using hget
  obtain ⟨hentry, hslot⟩ := h.fits id s m' hm
  obtain ⟨hentry', hslot'⟩ := h.fits id' s' m' hm'
  refine hne ⟨?_, ?_⟩
  · simpa [hslot] using hslot'.symm
  · simpa [hentry] using hentry'.symm

theorem Said.put_slot (said : Said) (id id' : ℕ) (s s' : Slot) (x : Option Message) :
    ((said.put id s x).latest id').slot s' =
      if s' = s ∧ id' = id then x else (said.latest id').slot s' := by
  rw [Said.put, Said.latest_set]
  by_cases hid : id' = id
  · subst hid
    by_cases hs : s' = s <;> simp [hs]
  · simp [hid]

theorem Said.put_kept (said : Said) (id id' : ℕ) (s : Slot) (x : Option Message) :
    ((said.put id s x).latest id').kept = (said.latest id').kept := by
  rw [Said.put, Said.latest_set]
  split
  · next heq => rw [heq]
  · rfl

/-- What is said after a slot has got something else that fits. -/
theorem Holds.fits_put (h : Holds c said) (hid : id ≠ 0xffff) (hx : ∀ m ∈ x, Fits id s m) :
    (∀ id' s' m, ((said.put id s x).latest id').slot s' = some m → Fits id' s' m) ∧
    (∀ id' m, id' ≠ 0xffff → m ∈ ((said.put id s x).latest id').kept → m.slot = none) ∧
    ∀ s', ((said.put id s x).latest 0xffff).slot s' = none := by
  refine ⟨fun id' s' m hsome => ?_, fun id' m hne hmem => ?_, fun s' => ?_⟩
  · rw [Said.put_slot] at hsome
    split at hsome
    · next hat => exact hat.1 ▸ hat.2 ▸ hx m hsome
    · exact h.fits id' s' m hsome
  · rw [Said.put_kept] at hmem
    exact h.kept id' m hne hmem
  · rw [Said.put_slot, if_neg fun hat => hid hat.2.symm]
    exact h.unassigned s'

/-- Something else is put where the table says that a message is. -/
theorem Holds.put (h : Holds c said) (hid : id ≠ 0xffff) (hm : (said.latest id).slot s = some m)
    (hx : ∀ m' ∈ x, Fits id s m') {u : List (ℕ × ℕ)}
    (hu : ∀ s' id', s'.get (u.getD id' (0, 0)) =
      if s' = s ∧ id' = id ∧ x = none then 0 else c.position s' id') :
    Holds { c with pending_outgoing := c.pending_outgoing.set (c.position s id - 1) x
                   pending_update := u } (said.put id s x) := by
  obtain ⟨hlt, hne, hget⟩ := h.lt_of_slot hm
  obtain ⟨hfits, hkept, hunassigned⟩ := h.fits_put hid hx
  refine ⟨?_, ?_, ?_, hfits, hkept, hunassigned⟩
  · exact h.represents.put hget hm (h.fits id s m hm) (h.not_mem_kept hm) hx
  · intro id' s' hnone
    rw [Said.put_slot] at hnone
    rw [position, hu]
    by_cases hat : s' = s ∧ id' = id
    · rw [if_pos hat] at hnone
      rw [if_pos ⟨hat.1, hat.2, hnone⟩]
    · rw [if_neg hat] at hnone
      rw [if_neg fun hall => hat ⟨hall.1, hall.2.1⟩]
      exact h.empty id' s' hnone
  · intro id' s' m' hsome
    rw [Said.put_slot] at hsome
    rw [position, hu]
    by_cases hat : s' = s ∧ id' = id
    · rw [if_pos hat] at hsome
      rw [if_neg fun hall => nomatch hall.2.2.symm.trans hsome]
      refine ⟨c.position s id - 1, ?_, ?_⟩
      · rw [hat.1, hat.2]
        omega
      · rw [List.getElem?_set_self hlt, hsome]
    · rw [if_neg hat] at hsome
      rw [if_neg fun hall => hat ⟨hall.1, hall.2.1⟩]
      obtain ⟨p', hp', hget'⟩ := h.there id' s' m' hsome
      refine ⟨p', hp', ?_⟩
      have hposition := h.position_ne hm hsome hat
      rw [List.getElem?_set_ne (by omega), hget']

theorem Holds.assign (h : Holds c said) (hid : id ≠ 0xffff)
    (hm : (said.latest id).slot s = some m) (hfits : Fits id s m') :
    ∃ c', c.assign (c.position s id - 1) (some m') = some c' ∧ Holds c' (said.put id s (some m')) := by
  refine ⟨_, if_pos (h.lt_of_slot hm).1, h.put hid hm ?_ fun s' id' => ?_⟩
  · rintro _ ⟨⟩
    exact hfits
  · rw [if_neg fun hall => nomatch hall.2.2]
    rfl

theorem Holds.clear (h : Holds c said) (hid : id ≠ 0xffff) (s : Slot) :
    ∃ c', c.clear s id = some c' ∧ Holds c' (said.put id s none) := by
  unfold NetworkConnection.clear
  cases hslot : (said.latest id).slot s with
  | none =>
    refine ⟨c, if_neg (not_not.mpr (h.empty id s hslot)), ?_⟩
    have hsame : said.put id s none = said := by
      rw [Said.put, ← hslot, Function.update_eq_self, Said.set, Function.update_eq_self]
    rwa [hsame]
  | some m =>
    obtain ⟨hlt, hne, -⟩ := h.lt_of_slot hslot
    rw [if_pos hne, NetworkConnection.assign, if_pos hlt]
    refine ⟨_, rfl, h.put hid hslot (by nofun) fun s' id' => ?_⟩
    have hrow : id < c.pending_update.length := by
      by_contra hge
      rw [position, List.getD_eq_default _ _ (not_lt.mp hge)] at hne
      cases s <;> exact hne rfl
    rw [getD_modify _ _ _ _ _ _ hrow]
    simp [position]

theorem those_push (P : Message → Bool) (batch : List (Option Message)) (m : Message) :
    those P (batch ++ [some m]) = those P batch ++ [m].filter P := by
  rw [those_append, those_cons]
  exact congrArg _ (List.append_nil _)

theorem some_entry (hm : m.entry = some id) : ∀ m' ∈ some m, m'.entry = some id := by
  rintro _ ⟨⟩
  exact hm

theorem those_concerns_push (batch : List (Option Message)) (hm : m.entry = some id) :
    those (concerns id') (batch ++ [some m]) =
      those (concerns id') batch ++ if id' = id then [m] else [] := by
  rw [those_push]
  exact congrArg _ (filter_concerns (some_entry hm))

theorem those_others_push (batch : List (Option Message)) (hm : m.entry = some id) :
    those (fun m => !knockedOut m) (batch ++ [some m]) =
      those (fun m => !knockedOut m) batch := by
  rw [those_push]
  exact (congrArg _ (filter_not_knockedOut (some_entry hm))).trans (List.append_nil _)

theorem getElem?_push {batch : List (Option Message)} (h : batch[p]? = some x) (m : Message) :
    (batch ++ [some m])[p]? = some x := by
  rw [List.getElem?_append_left (List.getElem?_eq_some_iff.mp h).1, h]

/-- A message of a slot that is empty goes behind the others. -/
theorem Holds.remember (h : Holds c said) (hid : id ≠ 0xffff)
    (hnone : (said.latest id).slot s = none) (hfits : Fits id s m) :
    Holds (c.remember s id m) (said.put id s (some m)) := by
  have hpending : (c.remember s id m).pending_outgoing = c.pending_outgoing ++ [some m] := rfl
  have hx : ∀ m' ∈ some m, Fits id s m' := by
    rintro _ ⟨⟩
    exact hfits
  obtain ⟨hfits', hkept, hunassigned⟩ := h.fits_put hid hx
  refine ⟨?_, ?_, ?_, hfits', hkept, hunassigned⟩
  · constructor
    · intro id'
      obtain ⟨rest, hentries, hrest⟩ := h.represents.entries id'
      rw [hpending, those_concerns_push _ hfits.1, hentries, Said.put_kept, List.append_assoc]
      refine ⟨_, rfl, ?_⟩
      by_cases heq : id' = id
      · subst heq
        have hother := hrest.trans (perm_pending _ s)
        rw [hnone] at hother
        rw [if_pos rfl, Said.put, Said.latest_set, if_pos rfl]
        refine (List.perm_append_comm.trans ?_).trans (pending_update _ s (some m)).symm
        exact hother.append_left [m]
      · rw [if_neg heq, List.append_nil, Said.put, Said.latest_set, if_neg heq]
        exact hrest
    · rw [hpending, those_others_push _ hfits.1]
      exact h.represents.others
  · intro id' s' hslot
    rw [Said.put_slot] at hslot
    rw [position_remember]
    split at hslot
    · nomatch hslot
    · next hat => rw [if_neg hat, h.empty id' s' hslot]
  · intro id' s' m' hslot
    rw [Said.put_slot] at hslot
    rw [position_remember, hpending]
    split at hslot
    · next hat =>
      obtain rfl := Option.some.inj hslot
      exact ⟨_, if_pos hat, by simp⟩
    · next hat =>
      obtain ⟨p', hp', hget⟩ := h.there id' s' m' hslot
      exact ⟨p', by rw [if_neg hat, hp'], getElem?_push hget m⟩

/-- What is kept goes behind the others when nothing else of its entry is pending. -/
theorem Holds.keep (h : Holds c said) (hentry : m.entry = some id)
    (hslot : id ≠ 0xffff → m.slot = none) (hnone : ∀ s, (said.latest id).slot s = none) :
    Holds (c.push_back m)
      (said.set id { said.latest id with kept := (said.latest id).kept ++ [m] }) := by
  have hpending : (c.push_back m).pending_outgoing = c.pending_outgoing ++ [some m] := rfl
  have hsame : ∀ id' s',
      ((said.set id { said.latest id with kept := (said.latest id).kept ++ [m] }).latest id').slot s' =
        (said.latest id').slot s' := by
    intro id' s'
    rw [Said.latest_set]
    split
    · next heq => rw [heq]
    · rfl
  constructor
  · constructor
    · intro id'
      obtain ⟨rest, hentries, hrest⟩ := h.represents.entries id'
      rw [hpending, those_concerns_push _ hentry, hentries, Said.latest_set]
      by_cases heq : id' = id
      · subst heq
        have hnil : Latest.pending (said.latest id').slot = [] := by simp [Latest.pending, hnone]
        rw [hnil, List.perm_nil] at hrest
        rw [if_pos rfl, if_pos rfl, hrest]
        exact ⟨[], by simp, by rw [hnil]⟩
      · rw [if_neg heq, if_neg heq, List.append_nil]
        exact ⟨rest, rfl, hrest⟩
    · rw [hpending, those_others_push _ hentry]
      exact h.represents.others
  · intro id' s' hslot'
    exact h.empty id' s' (hsame id' s' ▸ hslot')
  · intro id' s' m' hslot'
    obtain ⟨p', hp', hget⟩ := h.there id' s' m' (hsame id' s' ▸ hslot')
    exact ⟨p', hp', getElem?_push hget m⟩
  · intro id' s' m' hslot'
    exact h.fits id' s' m' (hsame id' s' ▸ hslot')
  · intro id' m' hne hmem
    rw [Said.latest_set] at hmem
    split at hmem
    · next heq =>
      subst heq
      obtain hmem | hmem := List.mem_append.mp hmem
      · exact h.kept id' m' hne hmem
      · obtain rfl := List.mem_singleton.mp hmem
        exact hslot hne
    · exact h.kept id' m' hne hmem
  · intro s'
    rw [hsame]
    exact h.unassigned s'

theorem knockedOut_of_concerns (h : concerns id m) : knockedOut m = true := by
  cases m <;> simp_all [concerns, knockedOut, entry]

theorem Holds.other (h : Holds c said) (hentry : m.entry = none) (hclear : m ≠ clearEntries) :
    Holds (c.push_back m) { said with other := said.other ++ [m] } := by
  have hpending : (c.push_back m).pending_outgoing = c.pending_outgoing ++ [some m] := rfl
  have hknocked : knockedOut m = false := by
    cases m <;> simp_all [knockedOut, entry]
  constructor
  · constructor
    · intro id'
      obtain ⟨rest, hentries, hrest⟩ := h.represents.entries id'
      refine ⟨rest, ?_, hrest⟩
      rw [hpending, those_push, hentries]
      simp [concerns, hentry, hclear]
    · rw [hpending, those_push, h.represents.others]
      simp [hknocked]
  · exact h.empty
  · intro id' s' m' hslot
    obtain ⟨p', hp', hget⟩ := h.there id' s' m' hslot
    exact ⟨p', hp', getElem?_push hget m⟩
  · exact h.fits
  · exact h.kept
  · exact h.unassigned

theorem those_knockOut (P : Message → Bool) (batch : List (Option Message)) :
    those P (batch.map fun i => i.filter fun m => !knockedOut m) =
      (those (fun m => !knockedOut m) batch).filter P := by
  induction batch with
  | nil => rfl
  | cons x batch ih =>
    rw [List.map_cons, those_cons, those_cons, ih, List.filter_append]
    cases x with
    | none => rfl
    | some m => cases hm : knockedOut m <;> simp [Option.filter_some, hm]

theorem Holds.clearEntries (h : Holds c said) : ∃ c', c.QueueOutgoing clearEntries = some c' ∧
    Holds c' { said with latest := fun _ => { kept := [Message.clearEntries] } } := by
  refine ⟨_, rfl, ?_, fun _ s _ => ?_, by nofun, by nofun, fun id' m' _ hmem => ?_, fun _ => rfl⟩
  · constructor
    · intro id'
      refine ⟨[], ?_, .refl _⟩
      have hnone : (those (fun m => !knockedOut m) c.pending_outgoing).filter (concerns id') = [] := by
        rw [those, List.filter_filter, List.filter_eq_nil_iff]
        rintro m - hm
        obtain ⟨hconcerns, hkept⟩ := Bool.and_eq_true_iff.mp hm
        simp [knockedOut_of_concerns hconcerns] at hkept
      rw [those_push, those_knockOut, hnone]
      simp [concerns]
    · rw [those_push, those_knockOut, ← h.represents.others, those, List.filter_filter]
      simp only [Bool.and_self]
      exact List.append_nil _
  · cases s <;> rfl
  · obtain rfl := List.mem_singleton.mp hmem
    rfl

theorem fits_merge (hfits : Fits id s m) (oldmsg : Option Message) :
    Fits id s (merge id oldmsg m) := by
  unfold merge
  split
  · exact ⟨rfl, hfits.2⟩
  · exact hfits

theorem next_entry (hentry : m.entry = some id) :
    said.next m = said.set id ((said.latest id).next id m) := by
  rw [Said.next, if_neg (ne_clear_of_entry hentry), hentry]

theorem next_slot (hid : id ≠ 0xffff) (hfits : Fits id s m) :
    said.next m = said.put id s (some (merge id ((said.latest id).slot s) m)) := by
  rw [next_entry hfits.1, Latest.next, if_neg hid, hfits.2, Said.put]

theorem Holds.unassigned_entry (h : Holds c said) (hentry : m.entry = some 0xffff) :
    Holds (c.push_back m) (said.next m) := by
  have hkeep := h.keep hentry (fun hne => absurd rfl hne) h.unassigned
  rwa [next_entry hentry, Latest.next, if_pos rfl]

theorem Holds.value (h : Holds c said) (hfits : Fits id .first m) :
    ∃ c', c.queueValue id m = some c' ∧ Holds c' (said.next m) := by
  unfold queueValue
  by_cases hid : id = 0xffff
  · subst hid
    exact ⟨_, if_pos rfl, h.unassigned_entry hfits.1⟩
  · rw [if_neg hid, next_slot hid hfits]
    cases hslot : (said.latest id).slot .first with
    | none =>
      rw [if_neg (not_not.mpr (h.empty id .first hslot))]
      exact ⟨_, rfl, h.remember hid hslot (fits_merge hfits none)⟩
    | some oldmsg =>
      obtain ⟨-, hne, hget⟩ := h.lt_of_slot hslot
      rw [if_pos hne, hget]
      exact h.assign hid hslot (fits_merge hfits (some oldmsg))

theorem merge_flags {flags : ℕ} (oldmsg : Option Message) :
    merge id oldmsg (flagsUpdate id flags) = flagsUpdate id flags := by
  unfold merge
  split <;> simp_all

theorem Holds.flags (h : Holds c said) (id flags : ℕ) :
    ∃ c', c.queueFlags id (flagsUpdate id flags) = some c' ∧
      Holds c' (said.next (flagsUpdate id flags)) := by
  have hfits : Fits id .second (flagsUpdate id flags) := ⟨rfl, rfl⟩
  unfold queueFlags
  by_cases hid : id = 0xffff
  · subst hid
    exact ⟨_, if_pos rfl, h.unassigned_entry rfl⟩
  · rw [if_neg hid, next_slot hid hfits, merge_flags]
    cases hslot : (said.latest id).slot .second with
    | none =>
      rw [if_neg (not_not.mpr (h.empty id .second hslot))]
      exact ⟨_, rfl, h.remember hid hslot hfits⟩
    | some oldmsg =>
      obtain ⟨-, hne, -⟩ := h.lt_of_slot hslot
      rw [if_pos hne]
      exact h.assign hid hslot hfits

theorem Said.set_set (said : Said) (id : ℕ) (l l' : Latest) :
    (said.set id l).set id l' = said.set id l' := by
  rw [Said.set, Said.set, Function.update_idem]
  rfl

theorem put_both (said : Said) (id : ℕ) :
    ((said.put id .first none).put id .second none) =
      said.set id { kept := (said.latest id).kept } := by
  have hslot : Function.update (Function.update (said.latest id).slot .first none) .second none =
      fun _ => none := by
    funext s
    cases s <;> rfl
  rw [Said.put, Said.put, Said.latest_set, if_pos rfl, Said.set_set, hslot]

theorem Holds.delete (h : Holds c said) (id : ℕ) :
    ∃ c', c.queueDelete id (entryDelete id) = some c' ∧ Holds c' (said.next (entryDelete id)) := by
  unfold queueDelete
  by_cases hid : id = 0xffff
  · subst hid
    exact ⟨_, if_pos rfl, h.unassigned_entry rfl⟩
  · obtain ⟨c₁, hc₁, h₁⟩ := h.clear hid .first
    obtain ⟨c₂, hc₂, h₂⟩ := h₁.clear hid .second
    have hnone : ∀ s, (((said.put id .first none).put id .second none).latest id).slot s = none := by
      intro s
      rw [Said.put_slot, Said.put_slot]
      cases s <;> simp
    have hkept := h₂.keep (m := entryDelete id) rfl (fun _ => rfl) hnone
    rw [put_both, Said.set_set, Said.latest_set, if_pos rfl] at hkept
    rw [if_neg hid, next_entry (show (entryDelete id).entry = some id from rfl), Latest.next,
      if_neg hid]
    exact ⟨c₂.push_back (entryDelete id), by rw [hc₁, Option.bind_eq_bind, Option.bind_some, hc₂]; rfl,
      hkept⟩

/-- A message that was queued is said. -/
theorem holds_queueOutgoing (h : Holds c said) (m : Message) :
    ∃ c', c.QueueOutgoing m = some c' ∧ Holds c' (said.next m) := by
  cases m with
  | entryAssign name id seq_num value flags => exact h.value ⟨rfl, rfl⟩
  | entryUpdate id seq_num value => exact h.value ⟨rfl, rfl⟩
  | flagsUpdate id flags => exact h.flags id flags
  | entryDelete id => exact h.delete id
  | clearEntries => exact h.clearEntries
  | _ => exact ⟨_, rfl, h.other rfl (by nofun)⟩

/-- Nothing but what is pending changes, and something is. -/
structure Queued (c c' : NetworkConnection) : Prop where
  outgoing : c'.outgoing = c.outgoing
  last_post : c'.last_post = c.last_post
  pending : c'.pending_outgoing ≠ []

theorem queued_push_back (c : NetworkConnection) (m : Message) : Queued c (c.push_back m) :=
  ⟨rfl, rfl, List.concat_ne_nil _ _⟩

theorem queued_remember (c : NetworkConnection) (s : Slot) (id : ℕ) (m : Message) :
    Queued c (c.remember s id m) := ⟨rfl, rfl, List.concat_ne_nil _ _⟩

theorem queued_assign (h : c.assign p x = some c') : Queued c c' := by
  unfold NetworkConnection.assign at h
  split at h
  · next hlt =>
    obtain rfl := Option.some.inj h
    refine ⟨rfl, rfl, fun hnil => ?_⟩
    rw [List.set_eq_nil_iff] at hnil
    simp [hnil] at hlt
  · nomatch h

theorem queued_clear {c'' : NetworkConnection} (h : c.clear s id = some c') (hq : Queued c' c'') :
    Queued c c'' := by
  unfold NetworkConnection.clear at h
  split at h
  · obtain ⟨c₁, hc₁, heq⟩ := Option.bind_eq_some_iff.mp h
    obtain rfl := Option.some.inj heq
    have hassign := queued_assign hc₁
    exact ⟨hq.outgoing.trans hassign.outgoing, hq.last_post.trans hassign.last_post, hq.pending⟩
  · obtain rfl := Option.some.inj h
    exact hq

theorem queued_queueOutgoing (h : c.QueueOutgoing m = some c') : Queued c c' := by
  cases m with
  | entryAssign name id seq_num value flags | entryUpdate id seq_num value =>
    simp only [QueueOutgoing, queueValue] at h
    split at h
    · exact Option.some.inj h ▸ queued_push_back ..
    · split at h
      · obtain ⟨oldmsg, -, hassign⟩ := Option.bind_eq_some_iff.mp h
        exact queued_assign hassign
      · exact Option.some.inj h ▸ queued_remember ..
  | flagsUpdate id flags =>
    simp only [QueueOutgoing, queueFlags] at h
    split at h
    · exact Option.some.inj h ▸ queued_push_back ..
    · split at h
      · exact queued_assign h
      · exact Option.some.inj h ▸ queued_remember ..
  | entryDelete id =>
    simp only [QueueOutgoing, queueDelete] at h
    split at h
    · exact Option.some.inj h ▸ queued_push_back ..
    · obtain ⟨c₁, hc₁, hrest⟩ := Option.bind_eq_some_iff.mp h
      obtain ⟨c₂, hc₂, heq⟩ := Option.bind_eq_some_iff.mp hrest
      exact queued_clear hc₁ (queued_clear hc₂ (Option.some.inj heq ▸ queued_push_back ..))
  | clearEntries =>
    obtain rfl := Option.some.inj h
    exact ⟨rfl, rfl, List.concat_ne_nil _ _⟩
  | _ => exact Option.some.inj h ▸ queued_push_back ..

end Operations

/-- What happens to a connection: a message is queued, or the dispatcher posts. -/
inductive ConnectionStep where
  | queue (msg : Message)
  | post (keep_alive : Bool) (now : ℕ)

def NetworkConnection.step (c : NetworkConnection) : ConnectionStep → Option NetworkConnection
  | .queue msg => c.QueueOutgoing msg
  | .post keep_alive now => some (c.PostOutgoing keep_alive now)

/-- A connection that sends the messages as they come. -/
structure PlainConnection where
  outgoing : List (List Message) := []
  last_post : ℕ := 0
  pending : List Message := []

def PlainConnection.step (plain : PlainConnection) : ConnectionStep → PlainConnection
  | .queue msg => { plain with pending := plain.pending ++ [msg] }
  | .post keep_alive now =>
      if plain.pending ≠ [] then
        { outgoing := plain.outgoing ++ [plain.pending], last_post := now }
      else if keep_alive ∧ 1000000000 ≤ now - plain.last_post then
        { plain with outgoing := plain.outgoing ++ [[keepAlive]], last_post := now }
      else plain

/-- The batches of the connection say what those of the plain one do, and are as many. -/
structure Simulates (c : NetworkConnection) (plain : PlainConnection) : Prop where
  outgoing : List.Forall₂ (fun batch msgs => Represents batch (Said.of msgs)) c.outgoing plain.outgoing
  last_post : c.last_post = plain.last_post
  holds : Holds c (Said.of plain.pending)
  pending : c.pending_outgoing = [] ↔ plain.pending = []

theorem holds_nothing {c : NetworkConnection} (h : c.pending_outgoing = [])
    (hu : c.pending_update = []) : Holds c (Said.of []) := by
  constructor
  · rw [h]
    exact ⟨fun _ => ⟨[], rfl, .refl _⟩, rfl⟩
  · intro _ s _
    rw [position, hu]
    cases s <;> rfl
  · nofun
  · nofun
  · nofun
  · exact fun _ => rfl

theorem represents_keepAlive : Represents [some keepAlive] (Said.of [keepAlive]) :=
  ⟨fun _ => ⟨[], rfl, .refl _⟩, rfl⟩

theorem simulates_step {c : NetworkConnection} {plain : PlainConnection} (h : Simulates c plain)
    (step : ConnectionStep) : ∃ c', c.step step = some c' ∧ Simulates c' (plain.step step) := by
  cases step with
  | queue msg =>
    obtain ⟨c', hc', hholds⟩ := holds_queueOutgoing h.holds msg
    have hqueued := queued_queueOutgoing hc'
    refine ⟨c', hc', ?_, hqueued.last_post.trans h.last_post, ?_, ?_⟩
    · rw [hqueued.outgoing]
      exact h.outgoing
    · rw [Said.of, PlainConnection.step, List.foldl_append]
      exact hholds
    · exact iff_of_false hqueued.pending (List.concat_ne_nil _ _)
  | post keep_alive now =>
    refine ⟨_, rfl, ?_⟩
    unfold PostOutgoing PlainConnection.step
    dsimp only
    by_cases hpending : plain.pending = []
    · have hempty : c.pending_outgoing.isEmpty = true := List.isEmpty_iff.mpr (h.pending.mpr hpending)
      rw [if_pos hempty, if_neg (not_not.mpr hpending), ← h.last_post]
      by_cases hkeep : keep_alive = true ∧ 1000000000 ≤ now - c.last_post
      · rw [if_neg (by simp [hkeep.1]), if_neg (not_lt.mpr hkeep.2), if_pos hkeep]
        refine ⟨List.rel_append h.outgoing (.cons represents_keepAlive .nil), rfl, ?_, h.pending⟩
        exact ⟨h.holds.represents, h.holds.empty, h.holds.there, h.holds.fits, h.holds.kept,
          h.holds.unassigned⟩
      · rw [if_neg hkeep]
        split
        · exact h
        · next hflag =>
          rw [if_pos (by_contra fun hlt => hkeep ⟨by simpa using hflag, not_lt.mp hlt⟩)]
          exact h
    · have hempty : ¬ c.pending_outgoing.isEmpty = true :=
        fun htrue => hpending (h.pending.mp (List.isEmpty_iff.mp htrue))
      rw [if_neg hempty, if_pos hpending]
      exact ⟨List.rel_append h.outgoing (.cons h.holds.represents .nil), rfl,
        holds_nothing rfl rfl, iff_of_true rfl rfl⟩

/-- However messages are queued and posted, the connection never leaves its vectors, and its
batches say what those of a plain connection do. -/
theorem outgoing_simulates (steps : List ConnectionStep) :
    ∃ c, steps.foldlM NetworkConnection.step {} = some c ∧
      Simulates c (steps.foldl PlainConnection.step {}) := by
  suffices hrun : ∀ (c : NetworkConnection) (plain : PlainConnection), Simulates c plain →
      ∃ c', steps.foldlM NetworkConnection.step c = some c' ∧
        Simulates c' (steps.foldl PlainConnection.step plain) from
    hrun {} {} ⟨.nil, rfl, holds_nothing rfl rfl, iff_of_true rfl rfl⟩
  induction steps with
  | nil => exact fun c plain h => ⟨c, rfl, h⟩
  | cons step steps ih =>
    intro c plain h
    obtain ⟨c₁, hc₁, h₁⟩ := simulates_step h step
    obtain ⟨c', hc', h'⟩ := ih c₁ _ h₁
    exact ⟨c', by rw [List.foldlM_cons, hc₁]; exact hc', h'⟩

end SparxRobot.NetworkTables
