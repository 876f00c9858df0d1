import SparxRobot.NetworkTables.Network

/-! Connections that carry nothing but updates: of every id the last one is pending. -/
namespace SparxRobot.NetworkTables
open Message NetworkConnection

/-- An update that arrives as it is. -/
def IsUpdate (id : ℕ) (m : Message) : Prop :=
  id < 0xffff ∧ ∃ seq_num value, m = entryUpdate id seq_num value ∧ seq_num < 65536 ∧
    value.Carried 0x0300

/-- What is on a connection. -/
def Regular (m : Message) : Prop := m = keepAlive ∨ ∃ id, IsUpdate id m

/-- Of every id at most one update is pending, and nothing else is. -/
structure Updates (c : NetworkConnection) (said : Said) : Prop where
  holds : Holds c said
  other : said.other = []
  kept : ∀ id, (said.latest id).kept = []
  flags : ∀ id, (said.latest id).slot .second = none
  value : ∀ id m, (said.latest id).slot .first = some m → IsUpdate id m

section Pending

variable {c : NetworkConnection} {said : Said} {m : Message} {id id' : ℕ}

theorem IsUpdate.entry (h : IsUpdate id m) : m.entry = some id := by
  obtain ⟨-, seq_num, value, rfl, -⟩ := h
  rfl

theorem received_of_regular (h : Regular m) : m.received 0x0300 = some m := by
  obtain rfl | ⟨id, hid, seq_num, value, rfl, hseq, hvalue⟩ := h
  · rfl
  · rw [received, Nat.mod_eq_of_lt (by omega), Nat.mod_eq_of_lt hseq, (hvalue 0x0300 fun h => h).2]

/-- A batch of regular messages arrives as it is. -/
theorem arriving_of_regular {batch : List (Option Message)}
    (h : ∀ m ∈ batch.reduceOption, Regular m) : arriving 0x0300 batch = batch.reduceOption := by
  induction batch with
  | nil => rfl
  | cons x batch ih =>
    cases x with
    | none => exact ih h
    | some m =>
      rw [List.reduceOption_cons_of_some, List.forall_mem_cons] at h
      rw [List.reduceOption_cons_of_some, ← ih h.2]
      simp only [arriving, List.filterMap_cons, Option.bind_some, received_of_regular h.1]

theorem Updates.those_eq (h : Updates c said) (id : ℕ) :
    those (concerns id) c.pending_outgoing = ((said.latest id).slot .first).toList := by
  obtain ⟨rest, hentries, hrest⟩ := h.holds.represents.entries id
  rw [h.kept, List.nil_append] at hentries
  rw [Latest.pending, h.flags, Option.toList_none, List.append_nil] at hrest
  rw [hentries]
  cases hslot : (said.latest id).slot .first with
  | none =>
    rw [hslot] at hrest
    exact List.perm_nil.mp hrest
  | some m =>
    rw [hslot] at hrest
    exact List.perm_singleton.mp hrest

theorem Updates.regular (h : Updates c said) : ∀ m ∈ c.pending_outgoing.reduceOption,
    ∃ id, IsUpdate id m := by
  intro m hm
  by_cases hknocked : knockedOut m
  · have hconcerns : ∃ id, concerns id m := by
      cases m <;> simp_all [knockedOut, concerns, entry]
    obtain ⟨id, hid⟩ := hconcerns
    have hthose : m ∈ those (concerns id) c.pending_outgoing := List.mem_filter.mpr ⟨hm, hid⟩
    rw [h.those_eq, Option.mem_toList] at hthose
    exact ⟨id, h.value id m hthose⟩
  · have hothers : m ∈ those (fun m => !knockedOut m) c.pending_outgoing :=
      List.mem_filter.mpr ⟨hm, by simpa using hknocked⟩
    rw [h.holds.represents.others, h.other] at hothers
    exact absurd hothers List.not_mem_nil

/-- An update takes the place of the one before it, and leaves the other ids alone. -/
theorem Updates.queue (h : Updates c said) (hm : IsUpdate id m) : ∃ c' said',
    c.QueueOutgoing m = some c' ∧ Updates c' said' ∧ c'.outgoing = c.outgoing ∧
      those (concerns id) c'.pending_outgoing = [m] ∧
      ∀ id' ≠ id, those (concerns id') c'.pending_outgoing =
        those (concerns id') c.pending_outgoing := by
  obtain ⟨c', hc', hholds⟩ := holds_queueOutgoing h.holds m
  have hid : id ≠ 0xffff := by
    have hlt := hm.1
    omega
  have hfits : Fits id .first m := by
    obtain ⟨-, seq_num, value, rfl, -⟩ := hm
    exact ⟨rfl, rfl⟩
  have hmerge : merge id ((said.latest id).slot .first) m = m := by
    cases hslot : (said.latest id).slot .first with
    | none => rfl
    | some old =>
      obtain ⟨-, seq_num, value, rfl, -⟩ := h.value id old hslot
      rfl
  have hnext : said.next m = said.put id .first (some m) := by rw [next_slot hid hfits, hmerge]
  rw [hnext] at hholds
  have hslot : ∀ id' s, ((said.put id .first (some m)).latest id').slot s =
      if s = .first ∧ id' = id then some m else (said.latest id').slot s := fun id' s =>
    Said.put_slot ..
  have hupdates : Updates c' (said.put id .first (some m)) := by
    refine ⟨hholds, h.other, fun id' => ?_, fun id' => ?_, fun id' m' hm' => ?_⟩
    · rw [Said.put_kept, h.kept]
    · rw [hslot, if_neg (by simp), h.flags]
    · rw [hslot] at hm'
      split at hm'
      · next hat =>
        obtain rfl := Option.some.inj hm'
        exact hat.2 ▸ hm
      · exact h.value id' m' hm'
  refine ⟨c', _, hc', hupdates, (queued_queueOutgoing hc').outgoing, ?_, fun id' hne => ?_⟩
  · rw [hupdates.those_eq, hslot, if_pos ⟨rfl, rfl⟩]
    rfl
  · rw [hupdates.those_eq, h.those_eq, hslot, if_neg fun hat => hne hat.2]

theorem Updates.posted (h : Updates c said) (outgoing : List (List (Option Message)))
    (last_post : ℕ) : Updates { c with outgoing := outgoing, last_post := last_post } said := by
  have hholds := h.holds
  exact ⟨⟨hholds.represents, hholds.empty, hholds.there, hholds.fits, hholds.kept,
    hholds.unassigned⟩, h.other, h.kept, h.flags, h.value⟩

theorem updates_nothing (h : c.pending_outgoing = []) (hu : c.pending_update = []) :
    Updates c (Said.of []) :=
  ⟨holds_nothing h hu, rfl, fun _ => rfl, fun _ => rfl, by nofun⟩

end Pending

end SparxRobot.NetworkTables
