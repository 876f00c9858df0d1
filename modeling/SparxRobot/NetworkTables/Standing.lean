import Mathlib.Logic.Function.Basic
import SparxRobot.NetworkTables.Updates
import SparxRobot.NetworkTables.Update

/-! What holds of the nodes and the connections while values change: every name has the same id
everywhere, and the connections carry nothing but updates. -/
namespace SparxRobot.NetworkTables
open Message NetworkConnection Storage

section Nodes

variable {ι : Type}

/-- A node knows the names and their ids. -/
structure Knows (ids : Bytes → Option ℕ) (node : Node ι) (s : Storage) : Prop where
  sound : s.Sound
  room : s.idmap.length ≤ 0xffff
  server : s.server = true ↔ node = .server
  queue_outgoing : s.queue_outgoing = true
  ids : ∀ name, (s.find name).map (·.id) = ids name

/-- A connection has nothing but updates to send, and they arrive as they are. -/
structure Carries (c : NetworkConnection) (inFlight : List Message) : Prop where
  pending : ∃ said, Updates c said
  outgoing : ∀ m ∈ c.outgoing.flatten.reduceOption, Regular m
  inFlight : ∀ m ∈ inFlight, Regular m

variable {ids : Bytes → Option ℕ} {node : Node ι} {s s' : Storage} {e : Entry} {name name' : Bytes}
  {c : NetworkConnection} {inFlight : List Message} {id : ℕ} {m : Message}

theorem Knows.kept (h : Knows ids node s) (hkept : Kept s s') : Knows ids node s' :=
  ⟨hkept.sound, hkept.idmap ▸ h.room, hkept.server ▸ h.server,
    hkept.queue_outgoing ▸ h.queue_outgoing, fun name => (hkept.ids name).trans (h.ids name)⟩

theorem Knows.id_eq (h : Knows ids node s) (he : e ∈ s.entries) : ids e.name = some e.id := by
  rw [← h.ids, h.sound.find_eq he]
  rfl

theorem Knows.id_lt (h : Knows ids node s) (he : e ∈ s.entries) : e.id < 0xffff :=
  (h.sound.id_lt he).trans_le h.room

/-- No two names have one id. -/
theorem Knows.name_eq (h : Knows ids node s) (hname : ids name = some id)
    (hname' : ids name' = some id) : name = name' := by
  have hfound : ∀ n, ids n = some id → ∃ e ∈ s.entries, e.name = n ∧ e.id = id := by
    intro n hn
    rw [← h.ids, Option.map_eq_some_iff] at hn
    obtain ⟨e, hfind, hid⟩ := hn
    exact ⟨e, (mem_of_find hfind).1, (mem_of_find hfind).2, hid⟩
  obtain ⟨e, he, rfl, hid⟩ := hfound name hname
  obtain ⟨e', he', rfl, hid'⟩ := hfound name' hname'
  have hpointer := h.sound.ids e he
  rw [hid, ← hid', h.sound.ids e' he'] at hpointer
  have haddress : e'.address = e.address := Option.some.inj (Option.some.inj hpointer)
  rw [h.sound.addresses e' he' e he haddress]

/-- What a message does that comes over a connection: it is an update that is later than the
entry's, or nothing happens. -/
theorem processRegular_cases (h : Knows ids node s) (hm : Regular m) (conn : Connection) :
    ∃ s' effects, s.ProcessIncoming conn m = some (s', effects) ∧
      ((s' = s ∧ effects.outgoing = [] ∧ ∀ e ∈ s.entries, ∀ seq_num value,
        m = entryUpdate e.id seq_num value → (SequenceNumber.mk seq_num).lessEqual e.seq_num) ∨
      ∃ e ∈ s.entries, ∃ seq_num value, m = entryUpdate e.id seq_num value ∧
        ¬ (SequenceNumber.mk seq_num).lessEqual e.seq_num ∧
        s' = s.revise e value ⟨seq_num⟩ e.IsPersistent ∧ effects.outgoing = s.relay conn m) := by
  obtain rfl | ⟨id, -, seq_num, value, rfl, -⟩ := hm
  · exact ⟨s, {}, rfl, .inl ⟨rfl, rfl, by nofun⟩⟩
  · by_cases hid : ∃ e ∈ s.entries, e.id = id
    · obtain ⟨e, he, rfl⟩ := hid
      obtain ⟨s', effects, hprocess, ⟨hle, rfl, hnothing⟩ | ⟨hlater, hs', hrelay⟩⟩ :=
        processUpdate_cases h.sound he conn seq_num value
      · refine ⟨s', effects, hprocess, .inl ⟨rfl, hnothing, fun e' he' n v heq => ?_⟩⟩
        obtain ⟨hid, rfl, -⟩ := entryUpdate.inj heq
        have hsame : e = e' := by
          have hname := h.name_eq (h.id_eq he) (hid ▸ h.id_eq he')
          exact h.sound.names e he e' he' hname
        exact hsame ▸ hle
      · exact ⟨s', effects, hprocess, .inr ⟨e, he, seq_num, value, rfl, hlater, hs', hrelay⟩⟩
    · have hne : ∀ e ∈ s.entries, e.id ≠ id := fun e he heq => hid ⟨e, he, heq⟩
      refine ⟨s, {}, processUpdate_none h.sound hne conn seq_num value, .inl ⟨rfl, rfl, ?_⟩⟩
      intro e he n v heq
      exact absurd (entryUpdate.inj heq).1.symm (hne e he)

theorem Carries.queue (h : Carries c inFlight) (hm : IsUpdate id m) : ∃ c',
    c.QueueOutgoing m = some c' ∧ Carries c' inFlight ∧ c'.outgoing = c.outgoing ∧
      those (concerns id) c'.pending_outgoing = [m] ∧
      ∀ id' ≠ id, those (concerns id') c'.pending_outgoing =
        those (concerns id') c.pending_outgoing := by
  obtain ⟨said, hsaid⟩ := h.pending
  obtain ⟨c', said', hc', hsaid', houtgoing, hthose, hothers⟩ := hsaid.queue hm
  exact ⟨c', hc', ⟨⟨said', hsaid'⟩, houtgoing ▸ h.outgoing, h.inFlight⟩, houtgoing, hthose, hothers⟩

theorem Carries.post (h : Carries c inFlight) (keep_alive : Bool) (now : ℕ) :
    Carries (c.PostOutgoing keep_alive now) inFlight := by
  obtain ⟨said, hsaid⟩ := h.pending
  unfold PostOutgoing
  split
  · split
    · exact h
    · split
      · exact h
      · refine ⟨⟨said, hsaid.posted ..⟩, ?_, h.inFlight⟩
        intro m hm
        rw [List.flatten_append, List.reduceOption_append, List.mem_append] at hm
        obtain hm | hm := hm
        · exact h.outgoing m hm
        · exact .inl (List.mem_singleton.mp hm)
  · refine ⟨⟨_, updates_nothing rfl rfl⟩, ?_, h.inFlight⟩
    intro m hm
    rw [List.flatten_append, List.reduceOption_append, List.mem_append, List.flatten_singleton] at hm
    exact hm.elim (h.outgoing m) fun hm => .inr (hsaid.regular m hm)

/-- The messages of a batch arrive. -/
theorem Carries.write (h : Carries c inFlight) {batch : List (Option Message)}
    {rest : List (List (Option Message))} (hbatch : c.outgoing = batch :: rest) :
    arriving 0x0300 batch = batch.reduceOption ∧
      Carries { c with outgoing := rest } (inFlight ++ arriving 0x0300 batch) := by
  have hall : ∀ m ∈ batch.reduceOption ++ rest.flatten.reduceOption, Regular m := by
    rw [← List.reduceOption_append, ← List.flatten_cons, ← hbatch]
    exact h.outgoing
  rw [List.forall_mem_append] at hall
  have harriving := arriving_of_regular hall.1
  obtain ⟨said, hsaid⟩ := h.pending
  refine ⟨harriving, ⟨said, hsaid.posted ..⟩, hall.2, ?_⟩
  rw [harriving, List.forall_mem_append]
  exact ⟨h.inFlight, hall.1⟩

end Nodes

section Systems

variable {ι : Type}

/-- The connection that a thread's messages are not for. -/
def Thread.except (uid : ι → ℕ) : Thread ι → Option ℕ
  | .user .. => none
  | .reader link => some (uid link.peer)

/-- What a thread has to queue are updates for all of its connections, or for all but that one. -/
def Tells (uid : ι → ℕ) (thread : Thread ι) (unsent : List Outgoing) : Prop :=
  ∀ o ∈ unsent, (∃ id, IsUpdate id o.msg) ∧ o.except = thread.except uid

structure Standing (uid : ι → ℕ) (ids : Bytes → Option ℕ) (sys : System ι) : Prop where
  knows : ∀ node, Knows ids node (sys.storage node)
  carries : ∀ link, Carries (sys.sender link) (sys.inFlight link)
  tells : ∀ thread, Tells uid thread (sys.unsent thread)

variable {uid : ι → ℕ} {ids : Bytes → Option ℕ} {sys sys' : System ι}

theorem tells_relay {s : Storage} {link : Link ι} {m : Message} (hm : ∃ id, IsUpdate id m) :
    Tells uid (.reader link) (s.relay ⟨uid link.peer, 0x0300⟩ m) := by
  unfold relay queueIfSet
  split
  · split
    · intro o ho
      obtain rfl := List.mem_singleton.mp ho
      exact ⟨hm, rfl⟩
    · nofun
  · nofun

theorem standing_start (uid : ι → ℕ) (h : sys.Start) :
    Standing uid (fun name => ((sys.storage .server).find name).map (·.id)) sys := by
  refine ⟨fun node => ⟨h.sound node, h.room node, h.server node, h.queue_outgoing node, ?_⟩,
    fun link => ?_, fun thread => ?_⟩
  · intro name
    have hsame := congrArg (Option.map (·.1)) (h.same node name)
    simpa [System.view, Option.map_map, Function.comp_def, Entry.shared] using hsame
  · obtain ⟨houtgoing, hpending, hupdate⟩ := h.sender link
    refine ⟨⟨_, updates_nothing hpending hupdate⟩, ?_, ?_⟩
    · rw [houtgoing]; nofun
    · rw [h.inFlight]; nofun
  · rw [h.unsent]; nofun

theorem Standing.view_none {name : Bytes} (h : Standing uid ids sys) (hids : ids name = none)
    (node : Node ι) : sys.view name node = none := by
  have hfind := (h.knows node).ids name
  rw [hids, Option.map_eq_none_iff] at hfind
  rw [System.view, hfind]
  rfl

variable [DecidableEq ι]

theorem Standing.storage (h : Standing uid ids sys) {node : Node ι} {s : Storage}
    (hs : Knows ids node s) (node' : Node ι) :
    Knows ids node' (Function.update sys.storage node s node') :=
  (Function.forall_update_iff _ fun node s => Knows ids node s).mpr
    ⟨hs, fun node' _ => h.knows node'⟩ node'

theorem Standing.unsent (h : Standing uid ids sys) {thread : Thread ι} {l : List Outgoing}
    (hl : Tells uid thread l) (thread' : Thread ι) :
    Tells uid thread' (Function.update sys.unsent thread l thread') :=
  (Function.forall_update_iff _ fun thread l => Tells uid thread l).mpr
    ⟨hl, fun thread' _ => h.tells thread'⟩ thread'

theorem standing_carry (h : Standing uid ids sys) (hcarry : sys.Carry uid sys') :
    Standing uid ids sys' := by
  cases hcarry with
  | @queue thread o rest sender hthread hsent hothers =>
    have hall := h.tells thread
    rw [hthread, Tells, List.forall_mem_cons] at hall
    obtain ⟨⟨⟨id, hid⟩, -⟩, hrest⟩ := hall
    refine ⟨h.knows, fun link => ?_, h.unsent hrest⟩
    by_cases hsends : Sends uid thread o link
    · obtain ⟨c', hc', hcarries', -⟩ := (h.carries link).queue hid
      obtain rfl : sender link = c' := Option.some.inj ((hsent link hsends).symm.trans hc')
      exact hcarries'
    · dsimp only
      rw [hothers link hsends]
      exact h.carries link
  | post link keep_alive now =>
    refine ⟨h.knows, fun link' => ?_, h.tells⟩
    dsimp only
    obtain rfl | hne := eq_or_ne link' link
    · rw [Function.update_self]
      exact (h.carries link').post keep_alive now
    · rw [Function.update_of_ne hne]
      exact h.carries link'
  | @write link batch rest hbatch =>
    refine ⟨h.knows, fun link' => ?_, h.tells⟩
    dsimp only
    obtain rfl | hne := eq_or_ne link' link
    · rw [Function.update_self, Function.update_self]
      exact ((h.carries link').write hbatch).2
    · rw [Function.update_of_ne hne, Function.update_of_ne hne]
      exact h.carries link'
  | @deliver link msg rest s effects hidle hmsg hprocess =>
    have hat := h.knows link.target
    have hregular := (h.carries link).inFlight
    rw [hmsg, List.forall_mem_cons] at hregular
    have hread : ∀ link', Carries (sys.sender link')
        (Function.update sys.inFlight link rest link') := by
      intro link'
      obtain rfl | hne := eq_or_ne link' link
      · rw [Function.update_self]
        exact ⟨(h.carries link').pending, (h.carries link').outgoing, hregular.2⟩
      · rw [Function.update_of_ne hne]
        exact h.carries link'
    obtain ⟨s, effects, hcase, hcases⟩ :=
      processRegular_cases hat hregular.1 ⟨uid link.peer, 0x0300⟩
    obtain ⟨rfl, rfl⟩ : _ ∧ _ := by simpa [hcase] using hprocess
    obtain ⟨rfl, hout, -⟩ | ⟨e, he, seq_num, value, rfl, -, rfl, hout⟩ := hcases
    · exact ⟨h.storage hat, hread, h.unsent (hout ▸ by nofun)⟩
    · refine ⟨h.storage (hat.kept (kept_revise hat.sound he ..)), hread, h.unsent ?_⟩
      rw [hout]
      obtain hkeep | hupdate := hregular.1
      · nomatch hkeep
      · exact tells_relay hupdate

variable {owner : Bytes → Node ι × ℕ}

theorem standing_step (h : Standing uid ids sys) (hstep : sys.Step owner uid sys') :
    Standing uid ids sys' := by
  cases hstep with
  | carry hcarry => exact standing_carry h hcarry
  | @set name value r s effects hidle hthere hvalue hset hnear =>
    obtain ⟨e, hfind⟩ := Option.isSome_iff_exists.mp hthere
    have hat := h.knows (owner name).1
    obtain ⟨r, s, effects, hcase, hcases⟩ :=
      setEntryValue_cases value hat.sound hat.room hat.queue_outgoing hfind
    have he := (mem_of_find hfind).1
    obtain ⟨rfl, rfl, rfl⟩ : _ ∧ _ ∧ _ := by simpa [hcase] using hset
    obtain ⟨-, rfl, hout⟩ | ⟨-, c, -, -, hout, rfl⟩ | ⟨c, hout, rfl⟩ := hcases
    · exact ⟨h.storage hat, h.carries, h.unsent (hout ▸ by nofun)⟩
    · refine ⟨h.storage (hat.kept (kept_revise hat.sound he ..)), h.carries, h.unsent ?_⟩
      exact hout ▸ by nofun
    · refine ⟨h.storage (hat.kept (kept_revise hat.sound he ..)), h.carries, h.unsent ?_⟩
      rw [hout]
      intro o ho
      obtain rfl := List.mem_singleton.mp ho
      exact ⟨⟨e.id, hat.id_lt he, _, _, rfl, SequenceNumber.next_lt, hvalue⟩, rfl⟩

theorem standing_run (h : Standing uid ids sys) (hrun : Run owner uid sys sys') :
    Standing uid ids sys' := by
  induction hrun with
  | refl => exact h
  | tail _ hstep ih => exact standing_step ih hstep

end Systems

end SparxRobot.NetworkTables
