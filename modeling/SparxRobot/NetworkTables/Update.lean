import SparxRobot.NetworkTables.Sound

/-! What a new value and an update do to an entry that has its id. -/
namespace SparxRobot.NetworkTables

namespace Storage

variable {s : Storage} {entry e : Entry} {name : Bytes} {value : Value}

theorem Sound.find_put (h : Sound s) (he : e ∈ s.entries) (haddress : e.address = entry.address)
    (hname : e.name = entry.name) (hvalue : entry.value ≠ none) :
    (s.put entry).find name = if name = entry.name then some entry else s.find name := by
  have hat : s.entryAt entry.name = e := by
    rw [← hname, entryAt, h.find_eq he, Option.getD_some]
  exact h.tidy.find_put (by rw [hat, haddress]) hvalue name

/-- What stays when values change. -/
structure Kept (s s' : Storage) : Prop where
  sound : Sound s'
  idmap : s'.idmap = s.idmap
  server : s'.server = s.server
  queue_outgoing : s'.queue_outgoing = s.queue_outgoing
  ids : ∀ name, (s'.find name).map (·.id) = (s.find name).map (·.id)

theorem Kept.refl (h : Sound s) : Kept s s := ⟨h, rfl, rfl, rfl, fun _ => rfl⟩

/-- The storage with another value and number of an entry. -/
def revise (s : Storage) (e : Entry) (value : Value) (seq_num : SequenceNumber) (c : Bool) : Storage :=
  (s.put { e with value := value, seq_num := seq_num }).dirty c

theorem find_revise (h : Sound s) (he : e ∈ s.entries) (seq_num : SequenceNumber) (c : Bool) :
    (s.revise e value seq_num c).find name =
      if name = e.name then some { e with value := value, seq_num := seq_num } else s.find name :=
  h.find_put he rfl rfl (Option.some_ne_none value)

theorem kept_revise (h : Sound s) (he : e ∈ s.entries) (seq_num : SequenceNumber) (c : Bool) :
    Kept s (s.revise e value seq_num c) := by
  refine ⟨?_, put_idmap, put_server, put_queue_outgoing, fun name => ?_⟩
  · exact ((h.set he (Option.some_ne_none value) e.flags seq_num e.rpc_call_uid).dirty c).sound
  · rw [find_revise h he]
    split
    · next heq => rw [heq, h.find_eq he]; rfl
    · rfl

/-- A value of another type is refused, one that is equal is not sent. -/
theorem setEntryValue_cases (value : Value) (h : Sound s) (hroom : s.idmap.length ≤ 0xffff)
    (hqueue : s.queue_outgoing = true) (hfind : s.find name = some e) : ∃ r s' effects,
    s.SetEntryValue name (some value) = some (r, s', effects) ∧
      (((name = [] ∨ e.value.any fun old => old.type ≠ value.type) ∧ s' = s ∧
        effects.outgoing = []) ∨
      (∃ old c, e.value = some old ∧ old.equal value ∧ effects.outgoing = [] ∧
        s' = s.revise e value e.seq_num c) ∨
      ∃ c, effects.outgoing = [⟨.entryUpdate e.id e.seq_num.next.value value, none⟩] ∧
        s' = s.revise e value e.seq_num.next c) := by
  obtain ⟨he, rfl⟩ := mem_of_find hfind
  obtain ⟨old, hold⟩ := Option.ne_none_iff_exists'.mp (h.values e he)
  have hid : e.id ≠ 0xffff := by
    have hlt := h.id_lt he
    omega
  have hat : s.entryAt e.name = e := by rw [entryAt, hfind, Option.getD_some]
  have hassign : s.assignId { e with value := some value } = (s, { e with value := some value }) :=
    if_neg fun hcond => hid hcond.2
  obtain ⟨c, hchanged⟩ := changed_isSome value fun (_ : Entry.IsPersistent
    { e with value := some value }) => h.values e he
  unfold SetEntryValue
  dsimp only
  split
  · next hempty => exact ⟨_, _, _, rfl, .inl ⟨.inl hempty, rfl, rfl⟩⟩
  · rw [hat, hassign]
    split
    · next hother => exact ⟨_, _, _, rfl, .inl ⟨.inr hother, rfl, rfl⟩⟩
    · rw [hold] at hchanged
      simp only [hold, hchanged, Option.bind_eq_bind, Option.bind_some]
      by_cases hequal : old.equal value
      · rw [if_pos (.inr hequal)]
        exact ⟨_, _, _, rfl, .inr (.inl ⟨old, c, rfl, hequal, rfl, put_dirty _⟩)⟩
      · have hsent : ¬ ((!(s.dirty c).queue_outgoing) = true ∨ old.equal value = true) := by
          rintro (hset | heq)
          · simp [dirty, hqueue] at hset
          · exact hequal heq
        rw [if_neg hsent]
        refine ⟨_, _, _, rfl, .inr (.inr ⟨c, ?_, put_dirty _⟩)⟩
        exact if_pos hqueue

theorem relay_put (conn : Connection) (msg : Message) (c : Bool) :
    ((s.put entry).dirty c).relay conn msg = s.relay conn msg := by
  have hserver : ((s.put entry).dirty c).server = s.server := put_server
  have hqueue : ((s.put entry).dirty c).queue_outgoing = s.queue_outgoing := put_queue_outgoing
  rw [relay, relay, queueIfSet, queueIfSet, hserver, hqueue]

/-- An update of an entry that is there is taken and sent on if it is later. -/
theorem processUpdate_cases (h : Sound s) (he : e ∈ s.entries) (conn : Connection) (seq_num : ℕ)
    (value : Value) : ∃ s' effects,
    s.ProcessIncoming conn (.entryUpdate e.id seq_num value) = some (s', effects) ∧
      (((SequenceNumber.mk seq_num).lessEqual e.seq_num ∧ s' = s ∧ effects.outgoing = []) ∨
      (¬ (SequenceNumber.mk seq_num).lessEqual e.seq_num ∧
        s' = s.revise e value ⟨seq_num⟩ e.IsPersistent ∧
        effects.outgoing = s.relay conn (.entryUpdate e.id seq_num value))) := by
  have hpointer : s.pointer e.id = some e.address := by
    rw [pointer, h.ids e he]
    rfl
  unfold ProcessIncoming
  dsimp only
  rw [withEntry, hpointer]
  dsimp only
  rw [h.follow_eq he, Option.bind_eq_bind, Option.bind_some]
  split
  · next hle => exact ⟨_, _, rfl, .inl ⟨hle, rfl, rfl⟩⟩
  · next hlater => exact ⟨_, _, rfl, .inr ⟨hlater, rfl, relay_put ..⟩⟩

/-- An update of an id that no entry has is ignored. -/
theorem processUpdate_none (h : Sound s) {id : ℕ} (hid : ∀ e ∈ s.entries, e.id ≠ id)
    (conn : Connection) (seq_num : ℕ) (value : Value) :
    s.ProcessIncoming conn (.entryUpdate id seq_num value) = some (s, {}) := by
  obtain hnone | ⟨e, he, -, heq, -⟩ := h.pointer_cases id
  · unfold ProcessIncoming
    dsimp only
    rw [withEntry, hnone]
  · exact absurd heq (hid e he)

end Storage

end SparxRobot.NetworkTables
