import SparxRobot.NetworkTables.Sound

/-! What the operations of a server make of its storage: a few shapes, whatever was asked. -/
namespace SparxRobot.NetworkTables

/-- What a file has of an entry, but for the sign of zero, is what it has of the other one. -/
structure Entry.Backs (e e' : Entry) : Prop where
  persistent : e.IsPersistent = e'.IsPersistent
  value : e.IsPersistent → e.value.map Value.normal = e'.value.map Value.normal

/-- An entry that is not persistent may have any value. -/
theorem Entry.backs_of_not {e e' : Entry} (hsame : e.IsPersistent = e'.IsPersistent)
    (hnot : e.IsPersistent = false) : e.Backs e' :=
  ⟨hsame, fun hpersistent => absurd hpersistent (hnot.trans_ne Bool.false_ne_true)⟩

namespace Storage

/-- An entry as it is written under a name. -/
structure WrittenAt (s : Storage) (name : Bytes) (entry : Entry) : Prop where
  address : entry.address = (s.entryAt name).address
  id : entry.id = (s.entryAt name).id
  name : entry.name = name
  value : entry.value ≠ none

/-- Where the mark `c` is not set, what is to be saved is as before. -/
inductive Change (s : Storage) : Storage → Prop
  | settings (queue_outgoing local_notifiers : Bool) :
      Change s { s with queue_outgoing := queue_outgoing, local_notifiers := local_notifiers }
  | written {name : Bytes} {entry : Entry} (c : Bool) (n : SequenceNumber)
      (hat : WrittenAt s name entry) (hbacks : c = false → entry.Backs (s.entryAt name)) :
      Change s (((s.assignId entry).1.put { (s.assignId entry).2 with seq_num := n }).dirty c)
  | created {entry : Entry} (hnew : s.find entry.name = none)
      (haddress : entry.address = s.allocated) (hid : entry.id = s.idmap.length)
      (hvalue : entry.value ≠ none) : Change s
        (({ s with idmap := s.idmap ++ [some entry.address] }.put entry).dirty entry.IsPersistent)
  | put {e entry : Entry} (c : Bool) (he : e ∈ s.entries) (haddress : entry.address = e.address)
      (hname : entry.name = e.name) (hid : entry.id = e.id) (hvalue : entry.value ≠ none)
      (hbacks : c = false → entry.Backs e) : Change s ((s.put entry).dirty c)
  | erased {e : Entry} (he : e ∈ s.entries) :
      Change s (({ s with idmap := s.idmap.set e.id none }.erase e.name).dirty e.IsPersistent)
  | cleared : Change s { s with
      entries := s.entries.filter Entry.IsPersistent
      idmap := (s.entries.filter fun entry => !entry.IsPersistent).foldl
        (fun idmap e => idmap.set e.id none) s.idmap }

section Writing

variable {s : Storage} {entry e : Entry} {name : Bytes}

theorem Change.refl (s : Storage) : Change s s := .settings s.queue_outgoing s.local_notifiers

theorem entryAt_name (s : Storage) (name : Bytes) : (s.entryAt name).name = name := by
  unfold entryAt
  cases hfind : s.find name with
  | none => rfl
  | some e => exact (mem_of_find hfind).2

theorem dirty_dirty (s : Storage) (c d : Bool) : (s.dirty c).dirty d = s.dirty (c || d) := by
  rw [dirty, dirty, dirty, Bool.or_assoc]

theorem dirty_false (s : Storage) : s.dirty false = s := by
  rw [dirty, Bool.or_false]

theorem writtenAt (s : Storage) (name : Bytes) (value : Value) :
    WrittenAt s name { s.entryAt name with value := some value } :=
  ⟨rfl, rfl, entryAt_name s name, Option.some_ne_none value⟩

theorem WrittenAt.writable (h : WrittenAt s name entry) : Writable s entry :=
  writable_entryAt name h.address (h.name.trans (entryAt_name s name).symm) h.id h.value

theorem notPersistent_of_new (hfind : s.find name = none) :
    (s.entryAt name).IsPersistent = false := by
  rw [entryAt, hfind, Option.getD_none, Entry.IsPersistent, decide_eq_false_iff_not]
  exact fun hne => hne (Nat.zero_and NT_PERSISTENT)

/-- An entry with another value is marked where it is persistent and the value is not equal. -/
theorem backs_of_changed {value : Value} (hsame : entry.IsPersistent = e.IsPersistent)
    (hvalue : entry.value = some value)
    (hchanged : changed entry.IsPersistent e.value value = some false) : entry.Backs e := by
  refine ⟨hsame, fun hpersistent => ?_⟩
  rw [changed, if_pos hpersistent] at hchanged
  obtain ⟨old, hold, hequal⟩ := Option.map_eq_some_iff.mp hchanged
  have hnormal : old.normal = value.normal := Value.normal_of_equal (by simpa using hequal)
  rw [hvalue, hold, Option.map_some, Option.map_some, hnormal]

theorem isPersistent_taken {take : Bool} {flags : ℕ}
    (h : (take && persistentChanged e.flags flags) = false) :
    Entry.IsPersistent { e with flags := if take then flags else e.flags } = e.IsPersistent := by
  cases take with
  | false => rfl
  | true =>
    rw [Bool.true_and, persistentChanged, decide_eq_false_iff_not, not_not] at h
    rw [Entry.IsPersistent, Entry.IsPersistent, h]
    rfl

/-- An equal value is written without a mark. -/
theorem change_equal {value : Value} (hat : WrittenAt s name entry)
    (hequal : (s.entryAt name).value.any (fun old_value => old_value.equal value) = true)
    (hsame : entry.IsPersistent = (s.entryAt name).IsPersistent)
    (hvalue : entry.value = some value) : Change s (s.put entry) := by
  obtain ⟨old, hold, hequal⟩ := (Option.any_eq_true _ _).mp hequal
  have hnormal : old.normal = value.normal := Value.normal_of_equal hequal
  have haddress := hat.address
  have hid := hat.id
  unfold entryAt at hold hsame haddress hid
  cases hfind : s.find name with
  | none =>
    rw [hfind] at hold
    cases hold
  | some e =>
    rw [hfind, Option.getD_some] at hold hsame haddress hid
    obtain ⟨he, hname⟩ := mem_of_find hfind
    have hput := Change.put false he haddress (hat.name.trans hname.symm) hid hat.value fun _ =>
      ⟨hsame, fun _ => by rw [hvalue, hold, Option.map_some, Option.map_some, hnormal]⟩
    rwa [dirty_false] at hput

theorem renumber_put (t : Storage) (entry : Entry) (old_value : Option Value) (new_value : Value)
    (checkId : Bool) :
    ∃ n, (t.renumber entry old_value new_value checkId).1 = t.put { entry with seq_num := n } := by
  unfold renumber
  split
  · exact ⟨entry.seq_num, rfl⟩
  · exact ⟨_, rfl⟩

theorem isPersistent_makePersistent (entry : Entry) : entry.makePersistent.IsPersistent := by
  unfold Entry.makePersistent
  split
  · next h => exact h
  · unfold Entry.IsPersistent NT_PERSISTENT
    rw [decide_eq_true_iff, Nat.and_or_distrib_right]
    exact fun hzero => absurd (Nat.or_eq_zero_iff.mp hzero).2 (by decide)

/-- A loaded entry is persistent, and nothing else becomes of it than of one that is written. -/
theorem load_put (s : Storage) (name : Bytes) (value : Value) : ∃ entry n,
    WrittenAt s name entry ∧ entry.value = some value ∧ entry.IsPersistent ∧
      (s.load name value).1 =
        (s.assignId entry).1.put { (s.assignId entry).2 with seq_num := n } := by
  have hmake : ∀ entry : Entry, entry.makePersistent.address = entry.address ∧
      entry.makePersistent.id = entry.id ∧ entry.makePersistent.name = entry.name ∧
      entry.makePersistent.value = entry.value := by
    intro entry
    unfold Entry.makePersistent
    split <;> exact ⟨rfl, rfl, rfl, rfl⟩
  obtain ⟨haddress, hid, hname, hvalue⟩ := hmake { s.entryAt name with value := value }
  have hat : WrittenAt s name ({ s.entryAt name with value := value } : Entry).makePersistent :=
    ⟨haddress, hid, hname.trans (entryAt_name s name), hvalue.trans_ne (Option.some_ne_none _)⟩
  unfold load
  dsimp only
  split
  · exact ⟨_, _, hat, hvalue, isPersistent_makePersistent _, rfl⟩
  · exact ⟨_, _, hat, hvalue, isPersistent_makePersistent _, rfl⟩

end Writing

section Operations

variable {s : Storage} (h : Serves s) (name : Bytes) (value : Option Value)

theorem change_setDefaultEntryValue : ∃ r s' effects,
    s.SetDefaultEntryValue name value = some (r, s', effects) ∧ Change s s' := by
  unfold SetDefaultEntryValue
  cases value with
  | none => exact ⟨_, _, _, rfl, .refl s⟩
  | some value =>
    by_cases hname : name = []
    · exact ⟨_, _, _, if_pos hname, .refl s⟩
    · simp only [if_neg hname]
      cases hfind : s.find name with
      | some entry => exact ⟨_, _, _, rfl, .refl s⟩
      | none =>
        simp only [assignment, assignId_value, Option.bind_eq_bind, Option.bind_some]
        have hchange := Change.written false
          (s.assignId { s.entryAt name with value := some value }).2.seq_num
          (writtenAt s name value) fun _ => Entry.backs_of_not rfl (notPersistent_of_new hfind)
        rw [dirty_false] at hchange
        exact ⟨_, _, _, rfl, hchange⟩

include h

theorem change_setEntryValue : ∃ r s' effects,
    s.SetEntryValue name value = some (r, s', effects) ∧ Change s s' := by
  unfold SetEntryValue
  cases value with
  | none => exact ⟨_, _, _, rfl, .refl s⟩
  | some value =>
    by_cases hname : name = []
    · exact ⟨_, _, _, if_pos hname, .refl s⟩
    · obtain ⟨c, hchanged⟩ := changed_isSome value (h.value_of_persistent name value)
      have hput := fun n => Change.written c n (writtenAt s name value) (by
        rintro rfl
        refine backs_of_changed rfl rfl ?_
        rw [← hchanged, Entry.IsPersistent, Entry.IsPersistent, assignId_flags])
      simp only [if_neg hname, hchanged]
      split
      · exact ⟨_, _, _, rfl, .refl s⟩
      · simp only [Option.bind_eq_bind, Option.bind_some]
        cases hold : (s.entryAt name).value with
        | none =>
          simp only [assignment, assignId_value, Option.bind_eq_bind, Option.bind_some, put_dirty]
          exact ⟨_, _, _, rfl, hput _⟩
        | some old_value =>
          dsimp only
          split
          · exact ⟨_, _, _, rfl, put_dirty _ ▸ hput _⟩
          · exact ⟨_, _, _, rfl, put_dirty _ ▸ hput _⟩

omit h in
theorem change_setEntryTypeValue : Change s (s.SetEntryTypeValue name value).1 := by
  unfold SetEntryTypeValue
  cases value with
  | none => exact .refl s
  | some value =>
    by_cases hname : name = []
    · simp only [if_pos hname]
      exact .refl s
    · simp only [if_neg hname]
      split
      · next hequal => exact change_equal (writtenAt s name value) hequal rfl rfl
      · obtain ⟨n, hrenumber⟩ := renumber_put _ _ _ value true
        rw [hrenumber, put_dirty]
        refine .written _ n (writtenAt s name value) fun hfalse => Entry.backs_of_not rfl ?_
        rwa [Entry.IsPersistent, assignId_flags] at hfalse

/-- The flags of an entry that is there. -/
theorem change_flags {e : Entry} (he : e ∈ s.entries) (flags : ℕ) :
    Change s ((s.put { e with flags := flags }).dirty (persistentChanged e.flags flags)) :=
  .put _ he rfl rfl rfl (h.values e he) fun hfalse =>
    ⟨@isPersistent_taken e true flags hfalse, fun _ => rfl⟩

theorem change_setEntryFlags (flags : ℕ) : Change s (s.SetEntryFlags name flags).1 := by
  unfold SetEntryFlags
  split
  · exact .refl s
  · split
    · exact .refl s
    · next entry hfind =>
      split
      · exact .refl s
      · dsimp only
        rw [put_dirty]
        exact change_flags h (mem_of_find hfind).1 flags

theorem change_callRpc (params : Bytes) : ∃ r s' effects,
    s.CallRpc name params = some (r, s', effects) ∧ Change s s' := by
  unfold CallRpc
  cases hfind : s.find name with
  | none => exact ⟨_, _, _, rfl, .refl s⟩
  | some entry =>
    have he := (mem_of_find hfind).1
    obtain ⟨value, hvalue⟩ := Option.ne_none_iff_exists'.mp (h.values entry he)
    dsimp only
    rw [hvalue, Option.bind_eq_bind, Option.bind_some]
    split
    · exact ⟨_, _, _, rfl, .refl s⟩
    · rw [put_server, if_pos h.server]
      have hput := fun uid => @Change.put s entry { entry with rpc_call_uid := uid } false he
        rfl rfl rfl (h.values entry he) fun _ => ⟨rfl, fun _ => rfl⟩
      simp only [dirty_false] at hput
      exact ⟨_, _, _, rfl, hvalue ▸ hput _⟩

omit h in
/-- An RPC is written without a mark, whatever was there. -/
theorem change_createRpc (text : Bytes) (callback : Bool) :
    Change s (s.createRpc name text callback).1 ∨ ∃ entry n, WrittenAt s name entry ∧
      entry.value = some (.rpc text) ∧ (s.createRpc name text callback).1 =
        (s.assignId entry).1.put { (s.assignId entry).2 with seq_num := n } := by
  have hat : WrittenAt s name
      { s.entryAt name with value := some (.rpc text), rpc_callback := callback } :=
    ⟨rfl, rfl, entryAt_name s name, Option.some_ne_none _⟩
  unfold createRpc
  split
  · exact .inl (.refl s)
  · dsimp only
    split
    · next hequal => exact .inl (change_equal hat hequal rfl rfl)
    · obtain ⟨n, hrenumber⟩ := renumber_put _ _ _ (.rpc text) false
      exact .inr ⟨_, n, hat, rfl, hrenumber⟩

theorem change_deleteEntry : Change s (s.DeleteEntry name).1 := by
  unfold DeleteEntry
  cases hfind : s.find name with
  | none => exact .refl s
  | some entry =>
    obtain ⟨he, rfl⟩ := mem_of_find hfind
    have hlt : entry.id < ((s.dirty entry.IsPersistent).erase entry.name).idmap.length :=
      h.id_lt he
    have hset : (((s.dirty entry.IsPersistent).erase entry.name).setId entry.id none).getD
        ((s.dirty entry.IsPersistent).erase entry.name) =
        ({ s with idmap := s.idmap.set entry.id none }.erase entry.name).dirty
          entry.IsPersistent := by
      rw [setId, if_pos hlt]
      rfl
    dsimp only
    rw [hset]
    split <;> exact .erased he

omit h in
/-- The loop over the entries that are deleted never leaves the id map. -/
theorem foldlM_setId {t : Storage} (l : List Entry)
    (hlt : ∀ e ∈ l, e.id < t.idmap.length ∧ e.id ≠ 0xffff) :
    l.foldlM (fun s entry => if entry.id = 0xffff then some s else s.setId entry.id none) t =
      some { t with idmap := l.foldl (fun idmap e => idmap.set e.id none) t.idmap } := by
  induction l generalizing t with
  | nil => rfl
  | cons e l ih =>
    obtain ⟨hid, hne⟩ := hlt e (.head _)
    rw [List.foldlM_cons, if_neg hne, setId, if_pos hid, Option.bind_eq_bind, Option.bind_some]
    exact ih fun e' he' => by simpa using hlt e' (.tail _ he')

theorem change_deleteAllEntriesImpl :
    ∃ s' notifications, s.DeleteAllEntriesImpl = some (s', notifications) ∧ Change s s' := by
  unfold DeleteAllEntriesImpl
  split
  · exact ⟨_, _, rfl, .refl s⟩
  · have hlt : ∀ e ∈ s.entries.filter (fun entry => !entry.IsPersistent),
        e.id < s.idmap.length ∧ e.id ≠ 0xffff := by
      intro e he
      have hid := h.id_lt (List.mem_of_mem_filter he)
      have hroom := h.room
      exact ⟨hid, by omega⟩
    dsimp only
    rw [foldlM_setId _ hlt]
    exact ⟨_, _, rfl, .cleared⟩

variable (conn : Connection)

theorem change_reassign {e : Entry} (he : e ∈ s.entries) (id : ℕ) (seq_num : SequenceNumber)
    (value : Value) (flags : ℕ) : ∃ s' effects,
    s.reassign conn e false id name seq_num value flags = some (s', effects) ∧ Change s s' := by
  unfold reassign
  split
  · exact ⟨_, _, rfl, .refl s⟩
  · split
    · exact ⟨_, _, rfl, .refl s⟩
    · have hvalue : ∀ flags', ∃ c, changed (Entry.IsPersistent { e with flags := flags' }) e.value
          value = some c := fun _ => changed_isSome value fun _ => h.values e he
      obtain ⟨c, hchanged⟩ := hvalue _
      dsimp only
      rw [hchanged]
      refine ⟨_, _, rfl, ?_⟩
      rw [put_dirty, put_dirty, dirty_dirty]
      refine .put _ he rfl rfl rfl (Option.some_ne_none value) fun hfalse => ?_
      obtain ⟨hflags, rfl⟩ := Bool.or_eq_false_iff.mp hfalse
      exact backs_of_changed (isPersistent_taken hflags) rfl hchanged

theorem change_assignOnServer (id : ℕ) (seq_num : SequenceNumber) (value : Value) (flags : ℕ) :
    ∃ s' effects, s.assignOnServer conn name id seq_num value flags = some (s', effects) ∧
      Change s s' := by
  unfold assignOnServer
  split
  · cases hfind : s.find name with
    | some e => exact ⟨_, _, rfl, .refl s⟩
    | none =>
      have hat : s.entryAt name = { address := s.allocated, name := name } := by
        rw [entryAt, hfind, Option.getD_none]
      refine ⟨_, _, rfl, ?_⟩
      rw [put_dirty]
      refine .created ?_ ?_ rfl (Option.some_ne_none value)
      · rw [hat]
        exact hfind
      · rw [hat]
  · obtain hnone | ⟨e, he, hpointer, -, hfollow⟩ := h.pointer_cases id
    · rw [hnone]
      exact ⟨_, _, rfl, .refl s⟩
    · rw [hpointer]
      dsimp only
      rw [hfollow]
      exact change_reassign h name conn he id seq_num value flags

theorem change_withEntry {f : Entry → Option (Storage × Effects)} {id : ℕ}
    (hf : ∀ e ∈ s.entries, e.id = id → ∃ s' effects, f e = some (s', effects) ∧ Change s s') :
    ∃ s' effects, s.withEntry id f = some (s', effects) ∧ Change s s' := by
  unfold withEntry
  obtain hnone | ⟨e, he, hpointer, hid, hfollow⟩ := h.pointer_cases id
  · rw [hnone]
    exact ⟨_, _, rfl, .refl s⟩
  · rw [hpointer]
    dsimp only
    rw [hfollow]
    exact hf e he hid

theorem change_processIncoming (msg : Message) :
    ∃ s' effects, s.ProcessIncoming conn msg = some (s', effects) ∧ Change s s' := by
  have hserver := h.server
  cases msg with
  | entryAssign name id seq_num value flags =>
    have heq : s.ProcessIncoming conn (.entryAssign name id seq_num value flags) =
        s.assignOnServer conn name id ⟨seq_num⟩ value flags := if_pos hserver
    rw [heq]
    exact change_assignOnServer h name conn id ⟨seq_num⟩ value flags
  | entryUpdate id seq_num value =>
    refine change_withEntry h fun e he _ => ?_
    split
    · exact ⟨_, _, rfl, .refl s⟩
    · exact ⟨_, _, rfl, .put _ he rfl rfl rfl (Option.some_ne_none value) fun hfalse =>
        Entry.backs_of_not rfl hfalse⟩
  | flagsUpdate id flags =>
    refine change_withEntry h fun e he _ => ?_
    split
    · exact ⟨_, _, rfl, .refl s⟩
    · exact ⟨_, _, rfl, change_flags h he flags⟩
  | entryDelete id =>
    refine change_withEntry h fun e he hid => ?_
    obtain rfl := hid
    have hset : (s.dirty e.IsPersistent).setId e.id none =
        some ({ s with idmap := s.idmap.set e.id none }.dirty e.IsPersistent) :=
      if_pos (h.id_lt he)
    have hfind : ({ s with idmap := s.idmap.set e.id none }.dirty e.IsPersistent).find e.name =
        some e := h.find_eq he
    rw [hset, Option.bind_eq_bind, Option.bind_some, hfind]
    exact ⟨_, _, rfl, .erased he⟩
  | clearEntries =>
    obtain ⟨s', notifications, himpl, hchange⟩ := change_deleteAllEntriesImpl h
    unfold ProcessIncoming
    dsimp only
    rw [himpl]
    exact ⟨_, _, rfl, hchange⟩
  | executeRpc id uid params =>
    have hnot : ¬ (!s.server) = true := by simp [hserver]
    unfold ProcessIncoming
    dsimp only
    rw [if_neg hnot]
    refine change_withEntry h fun e he _ => ?_
    obtain ⟨value, hvalue⟩ := Option.ne_none_iff_exists'.mp (h.values e he)
    rw [hvalue, Option.bind_eq_bind, Option.bind_some]
    split <;> exact ⟨_, _, rfl, .refl s⟩
  | rpcResponse id uid results => exact ⟨_, _, if_pos hserver, .refl s⟩
  | _ => exact ⟨_, _, rfl, .refl s⟩

end Operations

end Storage

end SparxRobot.NetworkTables
