import SparxRobot.NetworkTables.Restart

/-! When a file that was saved periodically is up to date. -/
namespace SparxRobot.NetworkTables

/-- Zero and minus zero are saved as they were first. -/
theorem Entry.savedValue_normal (e : Entry) : e.savedValue.map Value.normal =
    if e.IsPersistent then (e.value.map Value.normal).filter fun v => (typeText v.type).isSome
    else none := by
  unfold Entry.savedValue
  split
  · cases e.value with
    | none => rfl
    | some v =>
      rw [Option.map_some, Option.filter_some, Option.filter_some, Value.normal_type]
      split <;> rfl
  · rfl

theorem Entry.Backs.savedValue {e e' : Entry} (h : e.Backs e') :
    e.savedValue.map Value.normal = e'.savedValue.map Value.normal := by
  rw [Entry.savedValue_normal, Entry.savedValue_normal, ← h.persistent]
  split
  · next hpersistent => rw [h.value hpersistent]
  · rfl

namespace Storage

/-- What is to be saved of a name, but for the sign of zero. -/
def backed (s : Storage) (name : Bytes) : Option Value :=
  ((s.find name).bind Entry.savedValue).map Value.normal

/-- What was to be saved is as before, or the storage is dirty. -/
structure Covers (s s' : Storage) : Prop where
  dirty : s.persistent_dirty = true → s'.persistent_dirty = true
  backed : s'.persistent_dirty = false → s'.backed = s.backed

/-- The same entries, with other ids and settings. -/
structure SameEntries (s t : Storage) : Prop where
  entries : t.entries = s.entries
  allocated : t.allocated = s.allocated
  persistent_dirty : t.persistent_dirty = s.persistent_dirty

section Covering

variable {s s' s'' t : Storage} {entry e : Entry} {name : Bytes} {c : Bool}

theorem SameEntries.covers (h : SameEntries s t) : Covers s t := by
  refine ⟨fun hdirty => h.persistent_dirty.trans hdirty, fun _ => ?_⟩
  unfold Storage.backed find
  rw [h.entries]

theorem Covers.refl (s : Storage) : Covers s s := ⟨id, fun _ => rfl⟩

theorem sameEntries_assignId (s : Storage) (entry : Entry) :
    SameEntries s (s.assignId entry).1 := by
  unfold assignId
  split <;> exact ⟨rfl, rfl, rfl⟩

theorem backed_eq (s : Storage) (name : Bytes) :
    s.backed name = (s.entryAt name).savedValue.map Value.normal := by
  unfold backed entryAt
  cases s.find name with
  | some e => rfl
  | none =>
    have hnot : ¬ (0 &&& NT_PERSISTENT ≠ 0) := by decide
    rw [Option.bind_none, Option.getD_none, Entry.savedValue, Entry.IsPersistent,
      if_neg (by rw [decide_eq_true_iff]; exact hnot)]

/-- An entry that is written marks the storage where what is to be saved of it is another. -/
theorem covers_put (h : Tidy s) (ht : SameEntries s t)
    (haddress : entry.address = (s.entryAt entry.name).address) (hvalue : entry.value ≠ none)
    (hc : c = false → entry.savedValue.map Value.normal = s.backed entry.name) :
    Covers s ((t.put entry).dirty c) := by
  have htidy : Tidy t := by
    refine ⟨?_, ?_, ?_, ?_⟩ <;> rw [ht.entries]
    · exact h.names
    · exact h.addresses
    · rw [ht.allocated]
      exact h.allocated
    · exact h.values
  have hfind : ∀ name, t.find name = s.find name := fun name => by rw [find, find, ht.entries]
  have hat : entry.address = (t.entryAt entry.name).address := by
    rw [haddress, entryAt, entryAt, hfind, ht.allocated]
  have hdirty : (t.put entry).persistent_dirty = s.persistent_dirty := by
    rw [← ht.persistent_dirty]
    unfold put
    split <;> rfl
  refine ⟨fun hs => ?_, fun hclean => ?_⟩
  · rw [Storage.dirty, hdirty, hs]
    rfl
  · rw [Storage.dirty, Bool.or_eq_false_iff] at hclean
    funext name
    show (((t.put entry).find name).bind _).map _ = s.backed name
    rw [htidy.find_put hat hvalue]
    split
    · next heq => rw [heq, Option.bind_some, hc hclean.2]
    · rw [hfind, backed]

end Covering

section Changes

variable {s s' : Storage} (h : Serves s)
include h

/-- An entry that the program writes, with a new id if it is new. -/
theorem covers_write {name : Bytes} {entry : Entry} {c : Bool} (hat : WrittenAt s name entry)
    (hc : c = false → entry.savedValue.map Value.normal = s.backed name) (n : SequenceNumber) :
    Covers s (((s.assignId entry).1.put { (s.assignId entry).2 with seq_num := n }).dirty c) := by
  refine covers_put h.tidy (sameEntries_assignId ..) ?_ ?_ fun hfalse => ?_
  · rw [assignId_address, assignId_name, hat.address, hat.name]
  · rw [assignId_value]
    exact hat.value
  · rw [assignId_name, hat.name, ← hc hfalse]
    refine Entry.Backs.savedValue ⟨?_, fun _ => ?_⟩
    · rw [Entry.IsPersistent, Entry.IsPersistent, assignId_flags]
    · rw [assignId_value]

/-- An entry that is there is written. -/
theorem covers_set {e entry : Entry} {c : Bool} (he : e ∈ s.entries)
    (haddress : entry.address = e.address) (hname : entry.name = e.name)
    (hvalue : entry.value ≠ none) (hbacks : c = false → entry.Backs e) :
    Covers s ((s.put entry).dirty c) := by
  have hat : s.entryAt entry.name = e := by
    rw [entryAt, hname, h.find_eq he, Option.getD_some]
  refine covers_put h.tidy ⟨rfl, rfl, rfl⟩ (by rw [hat, haddress]) hvalue fun hfalse => ?_
  rw [backed_eq, hat, (hbacks hfalse).savedValue]

/-- An entry that is deleted marks the storage where it is persistent. -/
theorem covers_erase {e : Entry} (he : e ∈ s.entries) (idmap : List (Option ℕ)) :
    Covers s (({ s with idmap := idmap }.erase e.name).dirty e.IsPersistent) := by
  refine ⟨fun hdirty => ?_, fun hclean => ?_⟩
  · show (s.persistent_dirty || e.IsPersistent) = true
    rw [hdirty, Bool.true_or]
  · have hclean' : s.persistent_dirty = false ∧ e.IsPersistent = false :=
      Bool.or_eq_false_iff.mp hclean
    funext name
    show ((({ s with idmap := idmap }.erase e.name).find name).bind _).map _ = s.backed name
    have hfind := h.find_eq he
    by_cases hname : name = e.name
    · subst hname
      have hnone : ({ s with idmap := idmap }.erase e.name).find e.name = none := by
        unfold find erase
        rw [List.find?_eq_none]
        intro e' he'
        simpa using (List.mem_filter.mp he').2
      rw [hnone, backed, hfind, Option.bind_none, Option.bind_some, Entry.savedValue,
        if_neg (hclean'.2.trans_ne Bool.false_ne_true), Option.map_none]
    · have hsame : ({ s with idmap := idmap }.erase e.name).find name = s.find name := by
        unfold find erase
        rw [List.find?_filter]
        congr 1
        funext e'
        by_cases heq : e'.name = name
        · simp [heq, hname]
        · simp [heq]
      rw [hsame, backed]

omit h in
/-- Only what is not saved is deleted. -/
theorem backed_filter {s : Storage} (h : Tidy s) (idmap : List (Option ℕ)) (name : Bytes) :
    ({ s with entries := s.entries.filter Entry.IsPersistent
              idmap := idmap } : Storage).backed name = s.backed name := by
  have htidy : Tidy { s with entries := s.entries.filter Entry.IsPersistent, idmap := idmap } :=
    ⟨fun e he e' he' => h.names e (List.mem_of_mem_filter he) e' (List.mem_of_mem_filter he'),
      fun e he e' he' => h.addresses e (List.mem_of_mem_filter he) e' (List.mem_of_mem_filter he'),
      fun e he => h.allocated e (List.mem_of_mem_filter he),
      fun e he => h.values e (List.mem_of_mem_filter he)⟩
  unfold backed
  congr 1
  refine Option.ext fun v => ?_
  rw [Option.bind_eq_some_iff, Option.bind_eq_some_iff]
  refine exists_congr fun e => and_congr_left fun hsaved => ?_
  have hpersistent : e.IsPersistent := by
    unfold Entry.savedValue at hsaved
    split at hsaved
    · next h => exact h
    · cases hsaved
  rw [htidy.find_iff, h.find_iff, List.mem_filter, and_iff_left hpersistent]

/-- Whatever is made of the storage is marked, unless what is to be saved is as before. -/
theorem Change.covers (hchange : Change s s') : Covers s s' := by
  cases hchange with
  | settings queue_outgoing local_notifiers => exact SameEntries.covers ⟨rfl, rfl, rfl⟩
  | written c n hat hbacks =>
    refine covers_write h hat (fun hfalse => ?_) n
    rw [backed_eq, (hbacks hfalse).savedValue]
  | created hnew haddress hid hvalue =>
    refine covers_put h.tidy ⟨rfl, rfl, rfl⟩ ?_ hvalue fun hfalse => ?_
    · rw [entryAt, hnew, haddress]
      rfl
    · rw [backed, hnew, Entry.savedValue, if_neg (hfalse.trans_ne Bool.false_ne_true)]
      rfl
  | put c he haddress hname hid hvalue hbacks => exact covers_set h he haddress hname hvalue hbacks
  | erased he => exact covers_erase h he _
  | cleared =>
    refine ⟨id, fun _ => ?_⟩
    funext name
    exact backed_filter h.tidy _ name

/-- An RPC is not saved. -/
theorem covers_createRpc (name text : Bytes) (callback : Bool)
    (hnot : (s.find name).bind Entry.savedValue = none) :
    Covers s (s.createRpc name text callback).1 := by
  obtain hchange | ⟨entry, n, hat, hvalue, heq⟩ := @change_createRpc s name text callback
  · exact hchange.covers h
  · have hcovers := covers_write (c := false) h hat (fun _ => by
      rw [backed, hnot, Entry.savedValue, hvalue]
      split <;> rfl) n
    rwa [heq, ← dirty_false (Storage.put _ _)]

end Changes

/-- What is followed by a save. A file that is loaded, and an RPC in place of a value that is
saved, are not: they do not mark the storage. -/
def Operation.Marks (s : Storage) : Operation → Prop
  | LoadPersistent _ => False
  | CreateRpc name _ _ => (s.find name).bind Entry.savedValue = none
  | CreatePolledRpc name _ => (s.find name).bind Entry.savedValue = none
  | _ => True

theorem covers_apply {s s' : Storage} (h : Serves s) (op : Operation) (hmarks : op.Marks s)
    (hop : op.apply s = some s') : Covers s s' := by
  by_cases hplain : op.Plain
  · obtain ⟨s₁, hs₁, hchange⟩ := change_apply h op hplain
    rw [Option.some.inj (hop.symm.trans hs₁)]
    exact hchange.covers h
  · cases op with
    | LoadPersistent values => exact absurd hmarks id
    | CreateRpc name text callback =>
      obtain rfl := Option.some.inj hop
      unfold CreateRpc
      split
      · exact .refl s
      · exact covers_createRpc h name text true hmarks
    | CreatePolledRpc name text =>
      obtain rfl := Option.some.inj hop
      exact covers_createRpc h name text false hmarks
    | _ => exact absurd trivial hplain

end Storage

end SparxRobot.NetworkTables
