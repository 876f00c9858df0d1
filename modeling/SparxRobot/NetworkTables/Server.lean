import Mathlib.Logic.Relation
import SparxRobot.NetworkTables.Change

/-! The operations of a server. Whatever the clients send and whatever the program does, no
operation is undefined, as long as there are ids left. -/
namespace SparxRobot.NetworkTables

namespace Storage

section Changes

variable {s s' : Storage} (h : Serves s) (name : Bytes)
include h

/-- An entry is deleted together with its pointer. -/
theorem sound_erase {e : Entry} (he : e ∈ s.entries) :
    Step s ({ s with idmap := s.idmap.set e.id none }.erase e.name) := by
  have hkeep : ∀ e' ∈ s.entries, e'.id = e.id → e' = e := by
    intro e' he' hid
    have hids := h.ids e' he'
    rw [hid, h.ids e he] at hids
    exact h.addresses e' he' e he (by simpa using hids.symm)
  refine h.remove (s.idmap.set e.id none) _ (List.length_set ..) (fun e' he' hname => ?_)
    fun id address hget => ?_
  · have hne : e.id ≠ e'.id := by
      rintro hid
      simp [hkeep e' he' hid.symm] at hname
    rw [List.getElem?_set_ne hne, h.ids e' he']
  · have hne : e.id ≠ id := by
      rintro rfl
      rw [List.getElem?_set_self (h.id_lt he)] at hget
      nomatch hget
    rw [List.getElem?_set_ne hne] at hget
    refine ⟨hget, fun e' he' hid => ?_⟩
    have hname : e'.name ≠ e.name := fun hname => hne (h.names e' he' e he hname ▸ hid)
    simpa using hname

omit h in
theorem getElem?_foldl_set (l : List Entry) (idmap : List (Option ℕ)) (id : ℕ) (address : ℕ) :
    (l.foldl (fun idmap e => idmap.set e.id none) idmap)[id]? = some (some address) ↔
      idmap[id]? = some (some address) ∧ ∀ e ∈ l, e.id ≠ id := by
  induction l generalizing idmap with
  | nil => simp
  | cons e l ih =>
    rw [List.foldl_cons, ih, List.forall_mem_cons, ← and_assoc]
    refine and_congr_left fun _ => ?_
    by_cases hid : e.id = id
    · subst hid
      rw [List.getElem?_set_self']
      cases idmap[e.id]? <;> simp
    · rw [List.getElem?_set_ne hid]
      simp [hid]

omit h in
theorem length_foldl_set (l : List Entry) (idmap : List (Option ℕ)) :
    (l.foldl (fun idmap e => idmap.set e.id none) idmap).length = idmap.length := by
  induction l generalizing idmap with
  | nil => rfl
  | cons e l ih => rw [List.foldl_cons, ih, List.length_set]

theorem sound_cleared : Step s { s with
    entries := s.entries.filter Entry.IsPersistent
    idmap := (s.entries.filter fun entry => !entry.IsPersistent).foldl
      (fun idmap e => idmap.set e.id none) s.idmap } := by
  refine h.remove _ _ (length_foldl_set ..) (fun e he hkeep => ?_) fun id address hget => ?_
  · refine (getElem?_foldl_set ..).mpr ⟨h.ids e he, fun e' he' hid => ?_⟩
    have hids := h.ids e' (List.mem_of_mem_filter he')
    rw [hid, h.ids e he] at hids
    obtain rfl := h.addresses e' (List.mem_of_mem_filter he') e he (by simpa using hids.symm)
    simp [hkeep] at he'
  · obtain ⟨hold, hne⟩ := (getElem?_foldl_set ..).mp hget
    refine ⟨hold, fun e he hid => by_contra fun hkeep => hne e ?_ hid⟩
    exact List.mem_filter.mpr ⟨he, by simpa using hkeep⟩

/-- Settings are not what the server has to keep. -/
theorem sound_settings (queue_outgoing local_notifiers : Bool) :
    Step s { s with queue_outgoing := queue_outgoing, local_notifiers := local_notifiers } :=
  ⟨⟨h.names, h.addresses, h.allocated, h.values, h.ids, h.pointers⟩, rfl, le_refl _, le_refl _,
    fun _ _ _ hget => hget, fun e he _ => ⟨e, he, rfl, rfl⟩⟩

/-- Whatever is made of a sound storage is sound. -/
theorem Change.step (hchange : Change s s') : Step s s' := by
  cases hchange with
  | settings queue_outgoing local_notifiers =>
    exact sound_settings h queue_outgoing local_notifiers
  | written c n hat _ => exact (h.write hat.writable n).dirty c
  | created hnew haddress hid hvalue => exact (h.create hnew haddress hid hvalue).dirty _
  | put c he haddress hname hid hvalue _ =>
    exact (h.put he haddress.symm hname.symm hid.symm hvalue).dirty c
  | erased he => exact (sound_erase h he).dirty _
  | cleared => exact sound_cleared h

theorem sound_load (value : Value) : Step s (s.load name value).1 := by
  obtain ⟨entry, n, hat, -, -, heq⟩ := load_put s name value
  rw [heq]
  exact h.write hat.writable n

omit h in
theorem length_load (value : Value) : s.idmap.length ≤ (s.load name value).1.idmap.length := by
  obtain ⟨entry, n, -, -, -, heq⟩ := load_put s name value
  rw [heq, put_idmap]
  unfold assignId
  split <;> simp

theorem sound_createRpc (text : Bytes) (callback : Bool) :
    Step s (s.createRpc name text callback).1 := by
  obtain hchange | ⟨entry, n, hat, -, heq⟩ := change_createRpc name text callback
  · exact hchange.step h
  · rw [heq]
    exact h.write hat.writable n

theorem sound_getEntryType (id : ℕ) : (s.GetEntryType id).isSome := by
  unfold GetEntryType
  obtain hnone | ⟨e, he, hpointer, -, hfollow⟩ := h.pointer_cases id
  · rw [hnone]
    rfl
  · rw [hpointer]
    dsimp only
    rw [hfollow]
    rfl

theorem sound_getInitialAssignments : s.GetInitialAssignments.isSome := by
  have hassignment : ∀ e ∈ s.entries, assignment e ≠ none := by
    intro e he
    obtain ⟨value, hvalue⟩ := Option.ne_none_iff_exists'.mp (h.values e he)
    simp [assignment, hvalue]
  unfold GetInitialAssignments
  generalize s.entries = entries at hassignment
  induction entries with
  | nil => rfl
  | cons e entries ih =>
    obtain ⟨msg, hmsg⟩ := Option.ne_none_iff_exists'.mp (hassignment e (.head _))
    obtain ⟨msgs, hmsgs⟩ := Option.isSome_iff_exists.mp
      (ih fun e' he' => hassignment e' (.tail _ he'))
    rw [List.mapM_cons, hmsg, hmsgs]
    rfl

end Changes

theorem loadPersistent_storage (s : Storage) (values : List (Bytes × Value)) :
    (s.LoadPersistent values).1 = values.foldl (fun s value => (s.load value.1 value.2).1) s := by
  unfold LoadPersistent
  generalize ({} : Effects) = effects
  induction values generalizing s effects with
  | nil => rfl
  | cons value values ih => exact ih _ _

theorem length_foldl_load (s : Storage) (values : List (Bytes × Value)) : s.idmap.length ≤
    (values.foldl (fun s value => (s.load value.1 value.2).1) s).idmap.length := by
  induction values generalizing s with
  | nil => exact le_refl _
  | cons value values ih => exact (length_load value.1 value.2).trans (ih _)

theorem sound_loadPersistent {s : Storage} (h : Serves s) (values : List (Bytes × Value))
    (hroom : (s.LoadPersistent values).1.idmap.length ≤ 0xffff) :
    Step s (s.LoadPersistent values).1 := by
  rw [loadPersistent_storage] at hroom ⊢
  induction values generalizing s with
  | nil => exact .refl h.toSound
  | cons value values ih =>
    have hstep := sound_load h value.1 value.2
    have hlength := length_foldl_load (s.load value.1 value.2).1 values
    exact hstep.trans (ih (h.step hstep (hlength.trans hroom)) hroom)

/-- What the program and the connections of a server do with its storage. Each is done while the
mutex is held. -/
inductive Operation where
  | SetOutgoing
  | ClearOutgoing
  | AddLocalListener
  | GetEntryType (id : ℕ)
  | ProcessIncoming (conn : Connection) (msg : Message)
  | GetInitialAssignments
  | ApplyInitialAssignments (conn : Connection) (msgs : List Message) (new_server : Bool)
  | SetDefaultEntryValue (name : Bytes) (value : Option Value)
  | SetEntryValue (name : Bytes) (value : Option Value)
  | SetEntryTypeValue (name : Bytes) (value : Option Value)
  | SetEntryFlags (name : Bytes) (flags : ℕ)
  | DeleteEntry (name : Bytes)
  | DeleteAllEntries
  | LoadPersistent (values : List (Bytes × Value))
  | CreateRpc (name text : Bytes) (callback : Bool)
  | CreatePolledRpc (name text : Bytes)
  | CallRpc (name params : Bytes)

def Operation.apply (s : Storage) : Operation → Option Storage
  | SetOutgoing => some { s with queue_outgoing := true }
  | ClearOutgoing => some { s with queue_outgoing := false }
  | AddLocalListener => some { s with local_notifiers := true }
  | GetEntryType id => (s.GetEntryType id).map fun _ => s
  | ProcessIncoming conn msg => (s.ProcessIncoming conn msg).map (·.1)
  | GetInitialAssignments => s.GetInitialAssignments.map fun _ => s
  | ApplyInitialAssignments conn msgs new_server =>
      (s.ApplyInitialAssignments conn msgs new_server).map (·.2.1)
  | SetDefaultEntryValue name value => (s.SetDefaultEntryValue name value).map (·.2.1)
  | SetEntryValue name value => (s.SetEntryValue name value).map (·.2.1)
  | SetEntryTypeValue name value => some (s.SetEntryTypeValue name value).1
  | SetEntryFlags name flags => some (s.SetEntryFlags name flags).1
  | DeleteEntry name => some (s.DeleteEntry name).1
  | DeleteAllEntries => s.DeleteAllEntries.map (·.1)
  | LoadPersistent values => some (s.LoadPersistent values).1
  | CreateRpc name text callback => some (s.CreateRpc name text callback).1
  | CreatePolledRpc name text => some (s.CreatePolledRpc name text).1
  | CallRpc name params => (s.CallRpc name params).map (·.2.1)

/-- One operation, after which there are no more ids than the wire has numbers for. -/
def Next (s s' : Storage) : Prop :=
  ∃ op : Operation, op.apply s = some s' ∧ s'.idmap.length ≤ 0xffff

/-- An operation that is none of those which write without regard to the mark. -/
def Operation.Plain : Operation → Prop
  | LoadPersistent _ => False
  | CreateRpc .. => False
  | CreatePolledRpc .. => False
  | _ => True

variable {s s' : Storage}

theorem change_apply (h : Serves s) (op : Operation) (hplain : op.Plain) :
    ∃ s', op.apply s = some s' ∧ Change s s' := by
  cases op with
  | SetOutgoing => exact ⟨_, rfl, .settings true s.local_notifiers⟩
  | ClearOutgoing => exact ⟨_, rfl, .settings false s.local_notifiers⟩
  | AddLocalListener => exact ⟨_, rfl, .settings s.queue_outgoing true⟩
  | GetEntryType id =>
    obtain ⟨type, htype⟩ := Option.isSome_iff_exists.mp (sound_getEntryType h id)
    exact ⟨s, by rw [Operation.apply, htype]; rfl, .refl s⟩
  | GetInitialAssignments =>
    obtain ⟨msgs, hmsgs⟩ := Option.isSome_iff_exists.mp (sound_getInitialAssignments h)
    exact ⟨s, by rw [Operation.apply, hmsgs]; rfl, .refl s⟩
  | ApplyInitialAssignments conn msgs new_server =>
    refine ⟨s, ?_, .refl s⟩
    rw [Operation.apply, ApplyInitialAssignments, if_pos h.server]
    rfl
  | ProcessIncoming conn msg =>
    obtain ⟨s', effects, heq, hchange⟩ := change_processIncoming h conn msg
    exact ⟨s', by rw [Operation.apply, heq]; rfl, hchange⟩
  | SetDefaultEntryValue name value =>
    obtain ⟨r, s', effects, heq, hchange⟩ := @change_setDefaultEntryValue s name value
    exact ⟨s', by rw [Operation.apply, heq]; rfl, hchange⟩
  | SetEntryValue name value =>
    obtain ⟨r, s', effects, heq, hchange⟩ := change_setEntryValue h name value
    exact ⟨s', by rw [Operation.apply, heq]; rfl, hchange⟩
  | SetEntryTypeValue name value => exact ⟨_, rfl, change_setEntryTypeValue name value⟩
  | SetEntryFlags name flags => exact ⟨_, rfl, change_setEntryFlags h name flags⟩
  | DeleteEntry name => exact ⟨_, rfl, change_deleteEntry h name⟩
  | DeleteAllEntries =>
    obtain ⟨s', notifications, heq, hchange⟩ := change_deleteAllEntriesImpl h
    unfold Operation.apply DeleteAllEntries
    dsimp only
    split
    · exact ⟨s, rfl, .refl s⟩
    · rw [heq]
      exact ⟨s', rfl, hchange⟩
  | CallRpc name params =>
    obtain ⟨r, s', effects, heq, hchange⟩ := change_callRpc h name params
    exact ⟨s', by rw [Operation.apply, heq]; rfl, hchange⟩
  | _ => exact absurd hplain id

theorem sound_apply (h : Serves s) (op : Operation) :
    ∃ s', op.apply s = some s' ∧ (s'.idmap.length ≤ 0xffff → Step s s') := by
  by_cases hplain : op.Plain
  · obtain ⟨s', hop, hchange⟩ := change_apply h op hplain
    exact ⟨s', hop, fun _ => hchange.step h⟩
  · cases op with
    | LoadPersistent values => exact ⟨_, rfl, sound_loadPersistent h values⟩
    | CreateRpc name text callback =>
      refine ⟨_, rfl, fun _ => ?_⟩
      unfold CreateRpc
      split
      · exact .refl h.toSound
      · exact sound_createRpc h name text true
    | CreatePolledRpc name text => exact ⟨_, rfl, fun _ => sound_createRpc h name text false⟩
    | _ => exact absurd trivial hplain

theorem serves_start : Serves {} :=
  ⟨⟨by nofun, by nofun, by nofun, by nofun, by nofun, by nofun⟩, rfl, Nat.zero_le _⟩

theorem step_of_next (h : Serves s) (hnext : Next s s') : Step s s' ∧ Serves s' := by
  obtain ⟨op, hop, hroom⟩ := hnext
  obtain ⟨s₁, hs₁, hstep⟩ := sound_apply h op
  obtain rfl : s₁ = s' := by simpa [hop] using hs₁.symm
  exact ⟨hstep hroom, h.step (hstep hroom) hroom⟩

theorem step_of_run (h : Serves s) (hrun : Relation.ReflTransGen Next s s') :
    Step s s' ∧ Serves s' := by
  induction hrun with
  | refl => exact ⟨.refl h.toSound, h⟩
  | tail _ hnext ih =>
    obtain ⟨hstep, hserves⟩ := ih
    obtain ⟨hstep', hserves'⟩ := step_of_next hserves hnext
    exact ⟨hstep.trans hstep', hserves'⟩

def firstEntry : Entry := { address := 0, name := [97], value := some (.boolean true), id := 0 }

theorem next_firstEntry : Next {} { entries := [firstEntry], idmap := [some 0], allocated := 1 } :=
  ⟨.SetEntryValue [97] (some (.boolean true)), rfl, by decide⟩

/-- An id that was given to an entry is never that of another one. -/
theorem id_kept (hrun : Relation.ReflTransGen Next {} s) (hlater : Relation.ReflTransGen Next s s')
    {e' : Entry} (he' : e' ∈ s'.entries) (hid : e'.id < s.idmap.length) :
    ∃ e ∈ s.entries, e.id = e'.id ∧ e.address = e'.address ∧ e.name = e'.name := by
  obtain ⟨hstep, hserves⟩ := step_of_run serves_start hrun
  obtain ⟨hstep', -⟩ := step_of_run hserves hlater
  have hpointer := hstep'.extend.ids e'.id e'.address hid (hstep'.sound.ids e' he')
  obtain ⟨e, he, haddress, heid⟩ := hstep.sound.pointers _ _ hpointer
  obtain ⟨e₁, he₁, haddress₁, hname₁⟩ :=
    hstep'.extend.entries e' he' (haddress ▸ hstep.sound.allocated e he)
  obtain rfl := hstep.sound.addresses e he e₁ he₁ (haddress.trans haddress₁.symm)
  exact ⟨e, he, heid, haddress, hname₁⟩

def secondEntry : Entry := { address := 1, name := [98], value := some (.boolean true), id := 1 }

theorem id_kept_second : ∃ e ∈ [firstEntry, secondEntry], e.id = secondEntry.id ∧
    e.address = secondEntry.address ∧ e.name = secondEntry.name := by
  have hnext : Next { entries := [firstEntry], idmap := [some 0], allocated := 1 }
      { entries := [firstEntry, secondEntry], idmap := [some 0, some 1], allocated := 2 } :=
    ⟨.SetEntryValue [98] (some (.boolean true)), rfl, by decide⟩
  have hdelete : Next
      { entries := [firstEntry, secondEntry], idmap := [some 0, some 1], allocated := 2 }
      { entries := [secondEntry], idmap := [none, some 1], allocated := 2 } :=
    ⟨.DeleteEntry [97], rfl, by decide⟩
  exact id_kept (.tail (.single next_firstEntry) hnext) (.single hdelete) (.head _) (by decide)

end Storage

end SparxRobot.NetworkTables
