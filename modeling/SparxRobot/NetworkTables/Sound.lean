import Mathlib.Tactic.Common
import SparxRobot.NetworkTables.Storage

/-! What the server keeps: every entry has the id under which the id map points to it. Whatever
the clients send, no pointer of the map is one to a deleted entry. -/
namespace SparxRobot.NetworkTables

namespace Storage

/-- Every entry has a name and an address of its own, and a value. -/
structure Tidy (s : Storage) : Prop where
  names : ∀ e ∈ s.entries, ∀ e' ∈ s.entries, e.name = e'.name → e = e'
  addresses : ∀ e ∈ s.entries, ∀ e' ∈ s.entries, e.address = e'.address → e = e'
  allocated : ∀ e ∈ s.entries, e.address < s.allocated
  values : ∀ e ∈ s.entries, e.value ≠ none

structure Sound (s : Storage) : Prop where
  names : ∀ e ∈ s.entries, ∀ e' ∈ s.entries, e.name = e'.name → e = e'
  addresses : ∀ e ∈ s.entries, ∀ e' ∈ s.entries, e.address = e'.address → e = e'
  allocated : ∀ e ∈ s.entries, e.address < s.allocated
  values : ∀ e ∈ s.entries, e.value ≠ none
  ids : ∀ e ∈ s.entries, s.idmap[e.id]? = some (some e.address)
  pointers : ∀ id address, s.idmap[id]? = some (some address) →
    ∃ e ∈ s.entries, e.address = address ∧ e.id = id

/-- What never changes once it was said: no id is given to another entry, and no entry gets
another name. -/
structure Extends (s s' : Storage) : Prop where
  server : s'.server = s.server
  length : s.idmap.length ≤ s'.idmap.length
  allocated : s.allocated ≤ s'.allocated
  ids : ∀ id address, id < s.idmap.length → s'.idmap[id]? = some (some address) →
    s.idmap[id]? = some (some address)
  entries : ∀ e' ∈ s'.entries, e'.address < s.allocated →
    ∃ e ∈ s.entries, e.address = e'.address ∧ e.name = e'.name

structure Step (s s' : Storage) : Prop where
  sound : Sound s'
  extend : Extends s s'

section Primitives

variable {s s' s'' : Storage} {entry e : Entry} {name : Bytes} {id : ℕ}

theorem Extends.refl (s : Storage) : Extends s s :=
  ⟨rfl, le_refl _, le_refl _, fun _ _ _ h => h, fun e he _ => ⟨e, he, rfl, rfl⟩⟩

theorem Extends.trans (h : Extends s s') (h' : Extends s' s'') : Extends s s'' := by
  refine ⟨h'.server.trans h.server, h.length.trans h'.length, h.allocated.trans h'.allocated,
    fun id address hid hget => ?_, fun e'' he'' hlt => ?_⟩
  · exact h.ids id address hid (h'.ids id address (hid.trans_le h.length) hget)
  · obtain ⟨e', he', haddress', hname'⟩ := h'.entries e'' he'' (hlt.trans_le h.allocated)
    obtain ⟨e, he, haddress, hname⟩ := h.entries e' he' (haddress' ▸ hlt)
    exact ⟨e, he, haddress.trans haddress', hname.trans hname'⟩

theorem Step.refl (h : Sound s) : Step s s := ⟨h, .refl s⟩

theorem Step.trans (h : Step s s') (h' : Step s' s'') : Step s s'' :=
  ⟨h'.sound, h.extend.trans h'.extend⟩

theorem Step.dirty (h : Step s s') (c : Bool) : Step s (s'.dirty c) := by
  obtain ⟨⟨h1, h2, h3, h4, h5, h6⟩, h7, h8, h9, h10, h11⟩ := h
  exact ⟨⟨h1, h2, h3, h4, h5, h6⟩, h7, h8, h9, h10, h11⟩

theorem mem_of_find (h : s.find name = some e) : e ∈ s.entries ∧ e.name = name := by
  refine ⟨List.mem_of_find?_eq_some h, ?_⟩
  simpa using List.find?_some h

theorem ne_of_find (h : s.find name = none) : ∀ e ∈ s.entries, e.name ≠ name := by
  simpa [find] using h

theorem Tidy.find_iff (h : Tidy s) : s.find name = some e ↔ e ∈ s.entries ∧ e.name = name := by
  constructor
  · exact mem_of_find
  · rintro ⟨he, rfl⟩
    cases hfind : s.find e.name with
    | none => exact absurd rfl (ne_of_find hfind e he)
    | some e' =>
      obtain ⟨he', hname⟩ := mem_of_find hfind
      rw [h.names e' he' e he hname]

theorem Tidy.follow_eq (h : Tidy s) (he : e ∈ s.entries) : s.follow e.address = some e := by
  unfold follow
  cases hfind : s.entries.find? fun entry => entry.address = e.address with
  | none => exact absurd (List.find?_eq_none.mp hfind e he) (by simp)
  | some e' =>
    have haddress : e'.address = e.address := by simpa using List.find?_some hfind
    rw [h.addresses e' (List.mem_of_find?_eq_some hfind) e he haddress]

theorem Sound.tidy (h : Sound s) : Tidy s := ⟨h.names, h.addresses, h.allocated, h.values⟩

theorem Sound.find_eq (h : Sound s) (he : e ∈ s.entries) : s.find e.name = some e :=
  h.tidy.find_iff.mpr ⟨he, rfl⟩

theorem Sound.follow_eq (h : Sound s) (he : e ∈ s.entries) : s.follow e.address = some e :=
  h.tidy.follow_eq he

/-- A pointer of the id map leads to the entry with the id. -/
theorem Sound.pointer_cases (h : Sound s) (id : ℕ) : s.pointer id = none ∨
    ∃ e ∈ s.entries, s.pointer id = some e.address ∧ e.id = id ∧ s.follow e.address = some e := by
  unfold pointer
  cases hget : s.idmap[id]? with
  | none => exact .inl rfl
  | some pointer =>
    cases pointer with
    | none => exact .inl rfl
    | some address =>
      obtain ⟨e, he, rfl, hid⟩ := h.pointers id address hget
      exact .inr ⟨e, he, rfl, hid, h.follow_eq he⟩

theorem Sound.id_lt (h : Sound s) (he : e ∈ s.entries) : e.id < s.idmap.length :=
  (List.getElem?_eq_some_iff.mp (h.ids e he)).1

@[simp] theorem put_idmap : (s.put entry).idmap = s.idmap := by
  unfold put
  split <;> rfl

@[simp] theorem put_server : (s.put entry).server = s.server := by
  unfold put
  split <;> rfl

@[simp] theorem put_queue_outgoing : (s.put entry).queue_outgoing = s.queue_outgoing := by
  unfold put
  split <;> rfl

theorem put_allocated (hlt : entry.address < s.allocated) :
    (s.put entry).allocated = s.allocated := by
  rw [put, if_pos hlt]

theorem mem_put (hlt : entry.address < s.allocated) : e ∈ (s.put entry).entries ↔
    (e = entry ∧ ∃ old ∈ s.entries, old.address = entry.address) ∨
      (e ∈ s.entries ∧ e.address ≠ entry.address) := by
  rw [put, if_pos hlt, List.mem_map]
  constructor
  · rintro ⟨old, hold, heq⟩
    split at heq
    · next haddress => exact .inl ⟨heq.symm, old, hold, haddress⟩
    · next hne => exact .inr (heq ▸ ⟨hold, hne⟩)
  · rintro (⟨rfl, old, hold, haddress⟩ | ⟨he, hne⟩)
    · exact ⟨old, hold, if_pos haddress⟩
    · exact ⟨e, he, if_neg hne⟩

theorem Tidy.address_eq (h : Tidy s) (haddress : entry.address = (s.entryAt entry.name).address)
    (he : e ∈ s.entries) : e.address = entry.address ↔ e.name = entry.name := by
  unfold entryAt at haddress
  cases hfind : s.find entry.name with
  | none =>
    rw [hfind] at haddress
    have hlt := h.allocated e he
    have hne := ne_of_find hfind e he
    simp only [Option.getD_none] at haddress
    exact ⟨fun heq => by omega, fun heq => absurd heq hne⟩
  | some old =>
    rw [hfind] at haddress
    obtain ⟨hold, hname⟩ := mem_of_find hfind
    simp only [Option.getD_some] at haddress
    constructor
    · intro heq
      rw [h.addresses e he old hold (heq.trans haddress), hname]
    · intro heq
      rw [h.names e he old hold (heq.trans hname.symm), haddress]

/-- What is in the map after an entry was written or put there. -/
theorem Tidy.mem_put (h : Tidy s) (haddress : entry.address = (s.entryAt entry.name).address) :
    e ∈ (s.put entry).entries ↔ e = entry ∨ e ∈ s.entries ∧ e.name ≠ entry.name := by
  have hsame := fun {e : Entry} he => h.address_eq (e := e) haddress he
  by_cases hlt : entry.address < s.allocated
  · have hthere : ∃ old ∈ s.entries, old.address = entry.address := by
      cases hfind : s.find entry.name with
      | none =>
        rw [entryAt, hfind, Option.getD_none] at haddress
        exact absurd haddress hlt.ne
      | some old =>
        obtain ⟨hold, hname⟩ := mem_of_find hfind
        exact ⟨old, hold, (hsame hold).mpr hname⟩
    rw [Storage.mem_put hlt]
    constructor
    · rintro (⟨rfl, -⟩ | ⟨he, hne⟩)
      · exact .inl rfl
      · exact .inr ⟨he, fun hname => hne ((hsame he).mpr hname)⟩
    · rintro (rfl | ⟨he, hne⟩)
      · exact .inl ⟨rfl, hthere⟩
      · exact .inr ⟨he, fun heq => hne ((hsame he).mp heq)⟩
  · have hnew : ∀ old ∈ s.entries, old.name ≠ entry.name := fun old hold hname => by
      have heq := (hsame hold).mpr hname
      have := h.allocated old hold
      omega
    rw [Storage.put, if_neg hlt, List.mem_append, List.mem_singleton, or_comm]
    exact or_congr_right ⟨fun he => ⟨he, hnew e he⟩, And.left⟩

theorem Tidy.put (h : Tidy s) (haddress : entry.address = (s.entryAt entry.name).address)
    (hvalue : entry.value ≠ none) : Tidy (s.put entry) := by
  have hallocated : entry.address < (s.put entry).allocated ∧
      s.allocated ≤ (s.put entry).allocated := by
    have hle : entry.address ≤ s.allocated := by
      rw [haddress, entryAt]
      cases hfind : s.find entry.name with
      | none => exact le_refl _
      | some old => exact (h.allocated old (mem_of_find hfind).1).le
    unfold Storage.put
    split
    · next hlt => exact ⟨hlt, le_refl _⟩
    · exact ⟨Nat.lt_succ_of_le hle, Nat.le_succ _⟩
  refine ⟨fun e he e' he' heq => ?_, fun e he e' he' heq => ?_, fun e he => ?_, fun e he => ?_⟩
  · obtain rfl | ⟨he, hne⟩ := (h.mem_put haddress).mp he <;>
      obtain rfl | ⟨he', hne'⟩ := (h.mem_put haddress).mp he'
    · rfl
    · exact absurd heq.symm hne'
    · exact absurd heq hne
    · exact h.names e he e' he' heq
  · obtain rfl | ⟨hold, hne⟩ := (h.mem_put haddress).mp he <;>
      obtain rfl | ⟨hold', hne'⟩ := (h.mem_put haddress).mp he'
    · rfl
    · exact absurd ((h.address_eq haddress hold').mp heq.symm) hne'
    · exact absurd ((h.address_eq haddress hold).mp heq) hne
    · exact h.addresses e hold e' hold' heq
  · obtain rfl | ⟨he, -⟩ := (h.mem_put haddress).mp he
    · exact hallocated.1
    · exact (h.allocated e he).trans_le hallocated.2
  · obtain rfl | ⟨he, -⟩ := (h.mem_put haddress).mp he
    · exact hvalue
    · exact h.values e he

theorem Tidy.find_put (h : Tidy s) (haddress : entry.address = (s.entryAt entry.name).address)
    (hvalue : entry.value ≠ none) (name : Bytes) :
    (s.put entry).find name = if name = entry.name then some entry else s.find name := by
  refine Option.ext fun e => ?_
  rw [(h.put haddress hvalue).find_iff, h.mem_put haddress]
  split
  · next heq =>
    subst heq
    constructor
    · rintro ⟨rfl | ⟨-, hne⟩, heq⟩
      · rfl
      · exact absurd heq hne
    · intro heq
      obtain rfl := Option.some.inj heq
      exact ⟨.inl rfl, rfl⟩
  · next hne =>
    rw [h.find_iff]
    constructor
    · rintro ⟨rfl | ⟨he, -⟩, rfl⟩
      · exact absurd rfl hne
      · exact ⟨he, rfl⟩
    · rintro ⟨he, rfl⟩
      exact ⟨.inr ⟨he, hne⟩, rfl⟩

/-- An entry is written and keeps its name, its id and its address. -/
theorem Sound.put (h : Sound s) {old : Entry} (hold : old ∈ s.entries)
    (haddress : old.address = entry.address) (hname : old.name = entry.name)
    (hid : old.id = entry.id) (hvalue : entry.value ≠ none) : Step s (s.put entry) := by
  have hlt : entry.address < s.allocated := haddress ▸ h.allocated old hold
  have hallocated := put_allocated hlt
  have hsame : ∀ e ∈ (s.put entry).entries, ∃ e' ∈ s.entries, e'.address = e.address ∧
      e'.name = e.name ∧ e'.id = e.id ∧ e.value ≠ none ∧ (e'.address ≠ entry.address → e' = e) := by
    intro e he
    obtain ⟨rfl, -⟩ | ⟨he, hne⟩ := (mem_put hlt).mp he
    · exact ⟨old, hold, haddress, hname, hid, hvalue, fun hne => absurd haddress hne⟩
    · exact ⟨e, he, rfl, rfl, rfl, h.values e he, fun _ => rfl⟩
  have hunique : ∀ e ∈ (s.put entry).entries, ∀ e' ∈ (s.put entry).entries,
      e.address = e'.address → e = e' := by
    intro e he e' he' heq
    obtain ⟨rfl, -⟩ | ⟨he, hne⟩ := (mem_put hlt).mp he <;>
      obtain ⟨rfl, -⟩ | ⟨he', hne'⟩ := (mem_put hlt).mp he'
    · rfl
    · exact absurd heq.symm hne'
    · exact absurd heq hne
    · exact h.addresses e he e' he' heq
  refine ⟨⟨fun e he e' he' heq => ?_, hunique, fun e he => ?_,
    fun e he => ?_, fun e he => ?_, fun id address hget => ?_⟩, ?_⟩
  · obtain ⟨o, ho, ha, hn, -⟩ := hsame e he
    obtain ⟨o', ho', ha', hn', -⟩ := hsame e' he'
    have hoo : o = o' := h.names o ho o' ho' (hn.trans (heq.trans hn'.symm))
    exact hunique e he e' he' (ha.symm.trans (hoo ▸ ha'))
  · obtain ⟨o, ho, ha, -⟩ := hsame e he
    rw [hallocated, ← ha]
    exact h.allocated o ho
  · obtain ⟨o, ho, -, -, -, hv, -⟩ := hsame e he
    exact hv
  · obtain ⟨o, ho, ha, -, hi, -⟩ := hsame e he
    rw [put_idmap, ← ha, ← hi]
    exact h.ids o ho
  · rw [put_idmap] at hget
    obtain ⟨o, ho, ha, hi⟩ := h.pointers id address hget
    by_cases hat : o.address = entry.address
    · refine ⟨entry, (mem_put hlt).mpr (.inl ⟨rfl, o, ho, hat⟩), hat.symm.trans ha, ?_⟩
      rw [← hid, h.addresses old hold o ho (haddress.trans hat.symm), hi]
    · exact ⟨o, (mem_put hlt).mpr (.inr ⟨ho, hat⟩), ha, hi⟩
  · refine ⟨put_server, le_of_eq (by rw [put_idmap]), le_of_eq hallocated.symm,
      fun id address _ hget => ?_, fun e he _ => ?_⟩
    · rwa [put_idmap] at hget
    · obtain ⟨o, ho, ha, hn, -⟩ := hsame e he
      exact ⟨o, ho, ha, hn⟩

theorem Sound.set (h : Sound s) (he : e ∈ s.entries) {value : Option Value} (hvalue : value ≠ none)
    (flags : ℕ) (seq_num : SequenceNumber) (uid : ℕ) : Step s (s.put { e with
      value := value, flags := flags, seq_num := seq_num, rpc_call_uid := uid }) :=
  h.put he rfl rfl rfl hvalue

theorem unique_append {α : Type} {f : Entry → α} {l : List Entry}
    (h : ∀ e ∈ l, ∀ e' ∈ l, f e = f e' → e = e') (hnew : ∀ e ∈ l, f e ≠ f entry) :
    ∀ e ∈ l ++ [entry], ∀ e' ∈ l ++ [entry], f e = f e' → e = e' := by
  intro e he e' he' heq
  rw [List.mem_append, List.mem_singleton] at he he'
  obtain he | rfl := he <;> obtain he' | rfl := he'
  · exact h e he e' he' heq
  · exact absurd heq (hnew e he)
  · exact absurd heq.symm (hnew e' he')
  · rfl

/-- A new entry gets the next id. -/
theorem Sound.create (h : Sound s) (hfind : s.find entry.name = none)
    (haddress : entry.address = s.allocated) (hid : entry.id = s.idmap.length)
    (hvalue : entry.value ≠ none) :
    Step s ({ s with idmap := s.idmap ++ [some entry.address] }.put entry) := by
  have hput : { s with idmap := s.idmap ++ [some entry.address] }.put entry =
      { s with entries := s.entries ++ [entry], idmap := s.idmap ++ [some entry.address]
               allocated := s.allocated + 1 } := if_neg (by simp [haddress])
  rw [hput]
  have hmem : ∀ e ∈ s.entries ++ [entry], e ∈ s.entries ∨ e = entry := by simp
  refine ⟨⟨unique_append h.names (ne_of_find hfind), unique_append h.addresses
    fun e he => haddress ▸ (h.allocated e he).ne, fun e he => ?_, fun e he => ?_, fun e he => ?_,
    fun id address hget => ?_⟩, ?_⟩
  · obtain he | rfl := hmem e he
    · exact (h.allocated e he).trans s.allocated.lt_succ_self
    · exact haddress ▸ s.allocated.lt_succ_self
  · obtain he | rfl := hmem e he
    · exact h.values e he
    · exact hvalue
  · obtain he | rfl := hmem e he
    · exact (List.getElem?_append_left (h.id_lt he)).trans (h.ids e he)
    · rw [hid]
      exact List.getElem?_concat_length
  · rcases Nat.lt_trichotomy id s.idmap.length with hlt | rfl | hgt
    · rw [List.getElem?_append_left hlt] at hget
      obtain ⟨e, he, heq⟩ := h.pointers id address hget
      exact ⟨e, List.mem_append_left _ he, heq⟩
    · rw [List.getElem?_concat_length] at hget
      exact ⟨entry, by simp, by simpa using hget, hid⟩
    · rw [List.getElem?_eq_none (by simp; omega)] at hget
      exact absurd hget (Option.some_ne_none _).symm
  · refine ⟨rfl, by simp, Nat.le_succ _, fun id address hlt hget => ?_, fun e he hlt => ?_⟩
    · rwa [List.getElem?_append_left hlt] at hget
    · obtain he | rfl := hmem e he
      · exact ⟨e, he, rfl, rfl⟩
      · exact absurd hlt (by omega)

/-- Entries go together with their pointers. -/
theorem Sound.remove (h : Sound s) (idmap : List (Option ℕ)) (keep : Entry → Bool)
    (hlength : idmap.length = s.idmap.length)
    (hkept : ∀ e ∈ s.entries, keep e → idmap[e.id]? = some (some e.address))
    (hpointers : ∀ id address, idmap[id]? = some (some address) →
      s.idmap[id]? = some (some address) ∧ ∀ e ∈ s.entries, e.id = id → keep e) :
    Step s { s with entries := s.entries.filter keep, idmap := idmap } := by
  refine ⟨⟨fun e he e' he' => ?_, fun e he e' he' => ?_, fun e he => ?_, fun e he => ?_,
    fun e he => ?_, fun id address hget => ?_⟩, ?_⟩
  · exact h.names e (List.mem_of_mem_filter he) e' (List.mem_of_mem_filter he')
  · exact h.addresses e (List.mem_of_mem_filter he) e' (List.mem_of_mem_filter he')
  · exact h.allocated e (List.mem_of_mem_filter he)
  · exact h.values e (List.mem_of_mem_filter he)
  · exact hkept e (List.mem_of_mem_filter he) (List.mem_filter.mp he).2
  · obtain ⟨hold, hkeep⟩ := hpointers id address hget
    obtain ⟨e, he, ha, hi⟩ := h.pointers id address hold
    exact ⟨e, List.mem_filter.mpr ⟨he, hkeep e he hi⟩, ha, hi⟩
  · refine ⟨rfl, hlength.ge, le_refl _, fun id address _ hget => (hpointers id address hget).1,
      fun e he _ => ⟨e, List.mem_of_mem_filter he, rfl, rfl⟩⟩

/-- An entry with a value that is in the map, or that is new and has no id. -/
structure Writable (s : Storage) (entry : Entry) : Prop where
  value : entry.value ≠ none
  there : (∃ e ∈ s.entries, e.address = entry.address ∧ e.name = entry.name ∧ e.id = entry.id) ∨
    s.find entry.name = none ∧ entry.address = s.allocated ∧ entry.id = 0xffff

theorem writable_entryAt (name : Bytes) (haddress : entry.address = (s.entryAt name).address)
    (hname : entry.name = (s.entryAt name).name) (hid : entry.id = (s.entryAt name).id)
    (hvalue : entry.value ≠ none) : Writable s entry := by
  refine ⟨hvalue, ?_⟩
  unfold entryAt at haddress hname hid
  cases hfind : s.find name with
  | none =>
    rw [hfind] at haddress hname hid
    simp only [Option.getD_none] at haddress hname hid
    exact .inr ⟨hname ▸ hfind, haddress, hid⟩
  | some e =>
    rw [hfind] at haddress hname hid
    exact .inl ⟨e, (mem_of_find hfind).1, haddress.symm, hname.symm, hid.symm⟩

@[simp] theorem put_dirty (c : Bool) : (s.dirty c).put entry = (s.put entry).dirty c := by
  unfold put
  by_cases hlt : entry.address < s.allocated
  · rw [if_pos hlt]
    exact if_pos hlt
  · rw [if_neg hlt]
    exact if_neg hlt

@[simp] theorem assignId_address : (s.assignId entry).2.address = entry.address := by
  unfold assignId
  split <;> rfl

@[simp] theorem assignId_name : (s.assignId entry).2.name = entry.name := by
  unfold assignId
  split <;> rfl

@[simp] theorem assignId_value : (s.assignId entry).2.value = entry.value := by
  unfold assignId
  split <;> rfl

@[simp] theorem assignId_flags : (s.assignId entry).2.flags = entry.flags := by
  unfold assignId
  split <;> rfl

/-- A server that has no more ids than the wire has numbers for. -/
structure Serves (s : Storage) : Prop extends Sound s where
  server : s.server = true
  room : s.idmap.length ≤ 0xffff

theorem Serves.step (h : Serves s) (hstep : Step s s') (hroom : s'.idmap.length ≤ 0xffff) :
    Serves s' := ⟨hstep.sound, hstep.extend.server.trans h.server, hroom⟩

/-- The server writes an entry, with a new id if it is new. -/
theorem Serves.write (h : Serves s) (hw : Writable s entry) (n : SequenceNumber) :
    Step s ((s.assignId entry).1.put { (s.assignId entry).2 with seq_num := n }) := by
  obtain ⟨e, he, ha, hn, hi⟩ | ⟨hfind, ha, hi⟩ := hw.there
  · have hlt := h.id_lt he
    have hroom := h.room
    have hassign : s.assignId entry = (s, entry) := if_neg fun hcond => by omega
    rw [hassign]
    exact h.put he ha hn hi hw.value
  · have hassign : s.assignId entry =
        ({ s with idmap := s.idmap ++ [some entry.address] },
          { entry with id := s.idmap.length }) :=
      if_pos ⟨h.server, hi⟩
    rw [hassign]
    exact h.create hfind ha rfl hw.value

end Primitives

theorem changed_isSome {persistent : Bool} {old_value : Option Value} (value : Value)
    (h : persistent → old_value ≠ none) : ∃ c, changed persistent old_value value = some c := by
  unfold changed
  split
  · next hpersistent =>
    obtain ⟨old, rfl⟩ := Option.ne_none_iff_exists'.mp (h hpersistent)
    exact ⟨_, rfl⟩
  · exact ⟨_, rfl⟩

/-- A persistent entry has a value. -/
theorem Sound.value_of_persistent (h : Sound s) (name : Bytes) (value : Option Value)
    (hpersistent : (s.assignId { s.entryAt name with value := value }).2.IsPersistent) :
    (s.entryAt name).value ≠ none := by
  unfold Entry.IsPersistent at hpersistent
  rw [assignId_flags] at hpersistent
  unfold entryAt at *
  cases hfind : s.find name with
  | none =>
    rw [hfind] at hpersistent
    simp [NT_PERSISTENT] at hpersistent
  | some e => exact h.values e (mem_of_find hfind).1

end Storage

end SparxRobot.NetworkTables
