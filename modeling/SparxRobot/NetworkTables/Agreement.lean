import SparxRobot.NetworkTables.Granting
import SparxRobot.NetworkTables.Network

/-! What a server and a client have when a connection has begun. -/
namespace SparxRobot.NetworkTables

namespace Storage

section Client

variable {s s' : Storage} {e : Entry} {P : List Entry} {name : Bytes}

/-- The client without the ids of another connection. -/
def forget (s : Storage) : Storage :=
  { s with entries := s.entries.map fun entry => { entry with id := 0xffff }, idmap := [] }

theorem mem_forget (he : e ∈ s.forget.entries) : e.id = 0xffff ∧
    ∃ old ∈ s.entries, e = { old with id := 0xffff } := by
  obtain ⟨old, hold, rfl⟩ := List.mem_map.mp he
  exact ⟨rfl, old, hold, rfl⟩

theorem joining_forget (h : Tidy s) (hdistinct : (s.entries.map (·.name)).Nodup) :
    Joining s.forget := by
  have hnone : ∀ id, s.forget.pointer id = none := fun id => rfl
  refine ⟨⟨fun e he e' he' heq => ?_, fun e he e' he' heq => ?_, fun e he => ?_, fun e he => ?_⟩, ?_,
    fun e he hgiven => absurd (mem_forget he).1 hgiven, fun id address hget => ?_⟩
  · obtain ⟨-, old, hold, rfl⟩ := mem_forget he
    obtain ⟨-, old', hold', rfl⟩ := mem_forget he'
    rw [h.names old hold old' hold' heq]
  · obtain ⟨-, old, hold, rfl⟩ := mem_forget he
    obtain ⟨-, old', hold', rfl⟩ := mem_forget he'
    rw [h.addresses old hold old' hold' heq]
  · obtain ⟨-, old, hold, rfl⟩ := mem_forget he
    exact h.allocated old hold
  · obtain ⟨-, old, hold, rfl⟩ := mem_forget he
    exact h.values old hold
  · rw [forget, List.map_map]
    exact hdistinct
  · rw [hnone] at hget
    exact absurd hget.symm (Option.some_ne_none address)

theorem find_forget (s : Storage) (name : Bytes) :
    s.forget.find name = (s.find name).map fun e => { e with id := 0xffff } := by
  unfold find forget
  rw [List.find?_map]
  rfl

/-- The ids of a server can be taken by a client that has none. -/
theorem adoptable_forget {server : Storage} (h : Serves server)
    (hdistinct : (server.entries.map (·.name)).Nodup) : Adoptable s.forget server.entries := by
  have hids : ∀ e ∈ server.entries, ∀ e' ∈ server.entries, e.id = e'.id → e = e' := by
    intro e he e' he' heq
    have hpointer := h.ids e he
    rw [heq, h.ids e' he'] at hpointer
    exact h.addresses e he e' he' (Option.some.inj (Option.some.inj hpointer)).symm
  refine ⟨hdistinct, hdistinct.of_map.map_on hids, fun e he => ?_, h.values, fun e he => ?_,
    fun e he => rfl⟩
  · have hlt := h.id_lt he
    have hroom := h.room
    omega
  · unfold entryAt
    cases hfind : s.forget.find e.name with
    | none => rfl
    | some old => exact (mem_forget (mem_of_find hfind).1).1

/-- The entries that wait for an id. -/
def waiting (s : Storage) : List Entry := s.entries.filter fun e => e.id = 0xffff

theorem assignment_all {l : List Entry} (h : ∀ e ∈ l, e.value ≠ none) :
    l.mapM assignment = some (l.map Entry.told) := by
  induction l with
  | nil => rfl
  | cons e l ih =>
    obtain ⟨hvalue, h⟩ := List.forall_mem_cons.mp h
    obtain ⟨value, hvalue⟩ := Option.ne_none_iff_exists'.mp hvalue
    have htold : assignment e = some e.told := by
      rw [assignment, Entry.told, hvalue]
      rfl
    rw [List.mapM_cons, htold, ih h]
    rfl

theorem applyInitialAssignments_eq {conn : Connection} (hrev : 0x0300 ≤ conn.proto_rev)
    (hside : s.server = false) (h : Joining s.forget) (hP : Adoptable s.forget P) :
    ∃ s' effects, s.ApplyInitialAssignments conn (P.map Entry.told) true =
        some (s'.waiting.map Entry.told, s', effects) ∧
      effects.outgoing = [] ∧ Adopted s.forget s' P := by
  obtain ⟨s', effects, hall, hnone, hadopted⟩ := applyInitial_all hrev h hP {}
  have hassign : s'.waiting.mapM assignment = some (s'.waiting.map Entry.told) :=
    assignment_all fun e he => hadopted.joining.values e (List.mem_of_mem_filter he)
  refine ⟨s', { effects with outgoing := effects.outgoing ++ [] }, ?_, ?_, hadopted⟩
  · have hclient : ¬ s.server = true := by
      rw [hside]
      exact Bool.false_ne_true
    refine (if_neg hclient).trans (Option.bind_eq_some_iff.mpr ⟨(s', effects, []), hall, ?_⟩)
    exact Option.bind_eq_some_iff.mpr ⟨_, hassign, rfl⟩
  · rw [hnone]
    rfl

theorem mem_waiting {c : Entry} : c ∈ s.waiting ↔ c ∈ s.entries ∧ c.id = 0xffff := by
  rw [waiting, List.mem_filter, decide_eq_true_iff]

section Adopted

variable {server client : Storage} {c : Entry}

/-- What waits is what only the client had. -/
theorem waiting_new (hserver : Serves server) (h : Adopted client.forget s server.entries)
    (hc : c ∈ s.waiting) : s.find c.name = some c ∧ server.find c.name = none ∧
      ∃ old, client.find c.name = some old ∧ c = { old with id := 0xffff } := by
  obtain ⟨hmem, hwaits⟩ := mem_waiting.mp hc
  have hfind := h.joining.find_iff.mpr ⟨hmem, rfl⟩
  have hother : ∀ e ∈ server.entries, e.name ≠ c.name := by
    intro e he heq
    obtain ⟨e', hfind', hlike⟩ := h.taken e he
    rw [heq, hfind] at hfind'
    obtain rfl := Option.some.inj hfind'
    have hlt := hserver.id_lt he
    have hroom := hserver.room
    have hid := hlike.id
    omega
  have hnone : server.find c.name = none := by
    cases hserver' : server.find c.name with
    | none => rfl
    | some e =>
      obtain ⟨he, hname⟩ := mem_of_find hserver'
      exact absurd hname (hother e he)
  have hforget := h.others c.name hother
  rw [hfind, find_forget] at hforget
  obtain ⟨old, hold, heq⟩ := Option.map_eq_some_iff.mp hforget.symm
  exact ⟨hfind, hnone, old, hold, heq.symm⟩

/-- What does not wait and is not the server's is nowhere. -/
theorem absent (h : Adopted client.forget s server.entries) (hserver : server.find name = none)
    (hwaits : ∀ c ∈ s.waiting, c.name ≠ name) : s.find name = none ∧ client.find name = none := by
  have hsame := h.others name (ne_of_find hserver)
  have hnone : s.find name = none := by
    cases hfind : s.find name with
    | none => rfl
    | some c =>
      obtain ⟨hmem, hname⟩ := mem_of_find hfind
      rw [hfind] at hsame
      have hid := (mem_forget (mem_of_find hsame.symm).1).1
      exact absurd hname (hwaits c (mem_waiting.mpr ⟨hmem, hid⟩))
  rw [hnone, find_forget] at hsame
  exact ⟨hnone, Option.map_eq_none_iff.mp hsame.symm⟩

theorem length_waiting (hserver : Serves server) (h : Adopted client.forget s server.entries) :
    s.waiting.length ≤ client.entries.length := by
  have hnodup : (s.waiting.map (·.name)).Nodup :=
    h.joining.distinct.sublist (List.filter_sublist.map _)
  have hsub : s.waiting.map (·.name) ⊆ client.entries.map (·.name) := by
    intro name hname
    obtain ⟨c, hc, rfl⟩ := List.mem_map.mp hname
    obtain ⟨-, -, old, hold, -⟩ := waiting_new hserver h hc
    obtain ⟨hmem, hname⟩ := mem_of_find hold
    exact List.mem_map.mpr ⟨old, hmem, hname⟩
  have hle := (hnodup.subperm hsub).length_le
  rwa [List.length_map, List.length_map] at hle

theorem requests_waiting (hserver : Serves server) (h : Adopted client.forget s server.entries)
    (hroom : server.idmap.length + client.entries.length ≤ 0xffff) : Requests server s.waiting := by
  have hlength := length_waiting hserver h
  refine ⟨h.joining.distinct.sublist (List.filter_sublist.map _), fun c hc => ?_, fun c hc => ?_,
    fun c hc => (waiting_new hserver h hc).2.1, by omega⟩
  · exact h.joining.values c (mem_waiting.mp hc).1
  · exact (mem_waiting.mp hc).2

theorem mem_settledFrom {n : ℕ} {l : List Entry} {f : Entry} (hf : f ∈ settledFrom n l) :
    ∃ c ∈ l, ∃ i, n ≤ i ∧ i < n + l.length ∧ f = c.settled i ∧ c.granted i ∈ grantedFrom n l := by
  obtain ⟨⟨c, i⟩, hp, rfl⟩ := List.mem_map.mp hf
  obtain ⟨hle, hlt, hget⟩ := List.mem_zipIdx hp
  refine ⟨c, ?_, i, hle, by omega, rfl, List.mem_map.mpr ⟨(c, i), hp, rfl⟩⟩
  rw [hget]
  exact List.getElem_mem _

theorem adoptable_settled (hserver : Serves server) (h : Adopted client.forget s server.entries)
    (hroom : server.idmap.length + client.entries.length ≤ 0xffff) :
    Adoptable s (settledFrom server.idmap.length s.waiting) := by
  have hlength := length_waiting hserver h
  refine ⟨?_, ?_, fun f hf => ?_, fun f hf => ?_, fun f hf => ?_, fun f hf => ?_⟩
  · rw [names_settledFrom]
    exact h.joining.distinct.sublist (List.filter_sublist.map _)
  · rw [ids_settledFrom]
    exact List.nodup_range'
  · obtain ⟨c, hc, i, hle, hlt, rfl, -⟩ := mem_settledFrom hf
    show i ≠ 0xffff
    omega
  · obtain ⟨c, hc, i, hle, hlt, rfl, -⟩ := mem_settledFrom hf
    exact h.joining.values c (mem_waiting.mp hc).1
  · obtain ⟨c, hc, i, hle, hlt, rfl, -⟩ := mem_settledFrom hf
    show (s.entryAt c.name).id = 0xffff
    rw [entryAt, (waiting_new hserver h hc).1, Option.getD_some]
    exact (mem_waiting.mp hc).2
  · obtain ⟨c, hc, i, hle, hlt, rfl, -⟩ := mem_settledFrom hf
    refine h.pointer i fun e he heq => ?_
    have hid := hserver.id_lt he
    omega

end Adopted

end Client

end Storage

section Wire
open Message Dispatcher Storage

/-- Entries that a connection of version 3.0 carries as they are. -/
structure Entry.Carried (e : Entry) : Prop where
  name : CarriedString 0x0300 e.name
  value : ∀ v, e.value = some v → v.Carried 0x0300
  seq_num : e.seq_num.value < 65536
  flags : e.flags < 256

theorem arriving_of_all {msgs : List Message} (h : ∀ m ∈ msgs, m.received 0x0300 = some m) :
    arriving 0x0300 (msgs.map some) = msgs := by
  rw [arriving, List.filterMap_map]
  refine (List.filterMap_congr fun m hm => ?_).trans List.filterMap_some
  exact h m hm

theorem Entry.Carried.received {e : Entry} (h : e.Carried) (hid : e.id < 65536) :
    e.told.received 0x0300 = some e.told := by
  have hvalue : (e.value.getD .unassigned).received 0x0300 = e.value.getD .unassigned := by
    cases hv : e.value with
    | none => rfl
    | some v => exact (h.value v hv 0x0300 fun hrev => hrev).2
  rw [Entry.told, Message.received, Nat.mod_eq_of_lt hid, Nat.mod_eq_of_lt h.seq_num,
    Nat.mod_eq_of_lt h.flags, if_neg (by decide), hvalue, (h.name 0x0300 fun hrev => hrev).2]

theorem Entry.Carried.updates_received {e : Entry} (h : e.Carried) (hid : e.id < 65536) :
    ∀ m ∈ e.updates, m.received 0x0300 = some m := by
  intro m hm
  unfold Entry.updates at hm
  split at hm
  · have hvalue : (e.value.getD .unassigned).received 0x0300 = e.value.getD .unassigned := by
      cases hv : e.value with
      | none => rfl
      | some v => exact (h.value v hv 0x0300 fun hrev => hrev).2
    rw [List.mem_singleton.mp hm, Message.received, Nat.mod_eq_of_lt hid,
      Nat.mod_eq_of_lt h.seq_num, hvalue]
  · exact absurd hm List.not_mem_nil

theorem receiveAssigns_told {done : Message} (hdone : ∀ e : Entry, e.told ≠ done) (l : List Entry) :
    receiveAssigns done (l.map Entry.told ++ [done]) = some (l.map Entry.told, []) := by
  induction l with
  | nil => exact if_pos rfl
  | cons e l ih =>
    rw [List.map_cons, List.cons_append]
    unfold receiveAssigns
    rw [if_neg (hdone e), ih]
    rfl

/-- Each side reads what the other has sent. -/
structure Meeting (server client : Storage) (uid uid' : ℕ) (identity self_id : Bytes)
    (s c : Handshake) : Prop where
  server : ServerHandshake server ⟨uid, 0x0300⟩ identity
    (arriving 0x0300 (c.sent.flatten.map some)) = some s
  client : ClientHandshake client ⟨uid', 0x0300⟩ self_id
    (arriving 0x0300 (s.sent.flatten.map some)) = some c

/-- What the server says first. -/
def greeting (s : Storage) (identity : Bytes) : List Message :=
  serverHello 0 identity :: (s.entries.map Entry.told ++ [serverHelloDone])

variable {server client s₁ : Storage} {uid : ℕ} {identity self_id : Bytes}

theorem serverHandshake_sent (hvalues : ∀ e ∈ server.entries, e.value ≠ none) {msgs : List Message}
    {s : Handshake} (h : ServerHandshake server ⟨uid, 0x0300⟩ identity
      (clientHello 0x0300 self_id :: msgs) = some s) : s.sent = [greeting server identity] := by
  unfold ServerHandshake at h
  simp only [lt_irrefl, le_refl, ↓reduceIte, GetInitialAssignments,
    assignment_all hvalues, Option.bind_eq_bind, Option.bind_some] at h
  cases hreceive : receiveAssigns clientHelloDone msgs with
  | none =>
    rw [hreceive] at h
    rw [← Option.some.inj h]
    rfl
  | some received =>
    rw [hreceive] at h
    dsimp only at h
    rw [Option.bind_eq_some_iff] at h
    obtain ⟨p, -, h⟩ := h
    rw [← Option.some.inj h]
    rfl

theorem clientHelloDone_ne (e : Entry) : e.told ≠ clientHelloDone := Message.noConfusion

theorem serverHelloDone_ne (e : Entry) : e.told ≠ serverHelloDone := Message.noConfusion

theorem serverHandshake_eq (hvalues : ∀ e ∈ server.entries, e.value ≠ none) {l : List Entry}
    {effects : Effects} (h : server.processAll ⟨uid, 0x0300⟩ (l.map Entry.told) = some (s₁, effects)) :
    ServerHandshake server ⟨uid, 0x0300⟩ identity
      (clientHello 0x0300 self_id :: (l.map Entry.told ++ [clientHelloDone])) =
    some { established := true, sent := [greeting server identity], storage := s₁
           proto_rev := 0x0300, remote_id := self_id, effects := effects } := by
  unfold ServerHandshake
  simp only [lt_irrefl, le_refl, ↓reduceIte, GetInitialAssignments,
    assignment_all hvalues, Option.bind_eq_bind, Option.bind_some,
    receiveAssigns_told clientHelloDone_ne, h]
  rfl

theorem receiveInitial_sent {conn : Storage.Connection} {msgs : List Message} {hello c : Handshake}
    {new_server : Bool} (h : receiveInitial client conn hello new_server msgs = some c) :
    ∃ rest, c.sent = hello.sent ++ rest := by
  unfold receiveInitial at h
  split at h
  · rw [← Option.some.inj h]
    exact ⟨[], (List.append_nil _).symm⟩
  · rw [Option.bind_eq_bind, Option.bind_eq_some_iff] at h
    obtain ⟨p, -, h⟩ := h
    rw [← Option.some.inj h]
    exact ⟨_, rfl⟩

theorem clientHandshake_sent {conn : Storage.Connection} {msgs : List Message} {c : Handshake}
    (h : ClientHandshake client conn self_id msgs = some c) :
    ∃ rest, c.sent = [clientHello 0 self_id] :: rest := by
  unfold ClientHandshake at h
  dsimp only at h
  split at h
  · exact ⟨[], by rw [← Option.some.inj h]⟩
  · exact ⟨[], by rw [← Option.some.inj h]⟩
  · split at h
    · split at h
      · exact receiveInitial_sent h
      · exact ⟨[], by rw [← Option.some.inj h]⟩
    · exact receiveInitial_sent h

theorem clientHandshake_eq {out : List Message} {effects : Effects} {s : Storage}
    (h : client.ApplyInitialAssignments ⟨uid, 0x0300⟩ (server.entries.map Entry.told) true =
      some (out, s, effects)) :
    ClientHandshake client ⟨uid, 0x0300⟩ self_id (greeting server identity) =
    some { established := true, sent := [[clientHello 0 self_id], out ++ [clientHelloDone]]
           storage := s, proto_rev := 0x0300, remote_id := identity, effects := effects } := by
  unfold ClientHandshake greeting
  simp only [le_refl, ↓reduceIte, receiveInitial, receiveAssigns_told serverHelloDone_ne]
  have hflags : decide (0 &&& 1 = 0) = true := rfl
  rw [hflags, h, Option.bind_eq_bind, Option.bind_some]
  have hsent : out ++ [clientHelloDone] ≠ [] := 
    List.append_ne_nil_of_right_ne_nil _ (List.cons_ne_nil _ _)
  simp only [if_neg hsent]
  rfl

theorem Entry.Carried.granted {c : Entry} (h : c.Carried) (id : ℕ) : (c.granted id).Carried :=
  ⟨h.name, h.value, by show 0 < 65536; decide, h.flags⟩

theorem Entry.Carried.settled {c : Entry} (h : c.Carried) (id : ℕ) : (c.settled id).Carried := by
  refine ⟨h.name, h.value, ?_, h.flags⟩
  unfold Entry.settled
  dsimp only
  split
  · exact h.seq_num
  · decide

theorem carried_waiting {c : Entry} (hserver : server.Serves)
    (h : Adopted client.forget s₁ server.entries) (hcarried : ∀ e ∈ client.entries, e.Carried)
    (hc : c ∈ s₁.waiting) : c.Carried := by
  obtain ⟨-, -, old, hold, rfl⟩ := waiting_new hserver h hc
  have hcar := hcarried old (mem_of_find hold).1
  exact ⟨hcar.name, hcar.value, hcar.seq_num, hcar.flags⟩

/-- The one way in which the two sides can meet. -/
theorem meeting_unique {uid' : ℕ} {s c s' c' : Handshake}
    (hvalues : ∀ e ∈ server.entries, e.value ≠ none)
    (h : Meeting server client uid uid' identity self_id s c)
    (h' : Meeting server client uid uid' identity self_id s' c') : s' = s ∧ c' = c := by
  have hsent : ∀ {s c}, Meeting server client uid uid' identity self_id s c →
      s.sent = [greeting server identity] := by
    intro s c hmeet
    obtain ⟨rest, hrest⟩ := clientHandshake_sent hmeet.client
    have hserver := hmeet.server
    rw [hrest] at hserver
    exact serverHandshake_sent hvalues hserver
  have hclient := h.client
  have hclient' := h'.client
  rw [hsent h] at hclient
  rw [hsent h', hclient] at hclient'
  obtain rfl := Option.some.inj hclient'
  have hserver' := h'.server
  rw [h.server] at hserver'
  exact ⟨(Option.some.inj hserver').symm, rfl⟩

/-- The two nodes after the beginning of their connection. -/
def joined (server client : Storage) : System Unit :=
  { storage := fun node => match node with
      | .server => server
      | .client _ => client
    sender := fun _ => {}, inFlight := fun _ => [], unsent := fun _ => [] }

/-- What a connection is given of what a node hands on. -/
def given (uid : ℕ) (effects : Effects) : List (Option Message) :=
  (effects.outgoing.filter fun o => o.except ≠ some uid).map fun o => some o.msg

theorem given_to_all {effects : Effects} {msgs : List Message}
    (h : effects.outgoing = msgs.map fun msg => ⟨msg, none⟩) : given uid effects = msgs.map some := by
  rw [given, h, List.filter_map, List.map_map]
  congr 1
  exact List.filter_eq_self.mpr fun m _ => rfl

theorem given_to_others {effects : Effects} (h : ∀ o ∈ effects.outgoing, o.except = some uid) :
    given uid effects = [] := by
  rw [given, List.filter_eq_nil_iff.mpr, List.map_nil]
  intro o ho
  rw [h o ho, decide_eq_true_iff]
  exact fun hne => hne rfl

theorem Entry.Like.shared {e e' : Entry} (h : e.Like e') : e.shared = e'.shared := by
  rw [Entry.shared, Entry.shared, h.id, h.value, h.seq_num]

theorem Storage.Joining.sound {s : Storage} (h : s.Joining) (hgiven : ∀ e ∈ s.entries, e.id ≠ 0xffff) :
    s.Sound := by
  refine ⟨h.names, h.addresses, h.allocated, h.values,
    fun e he => pointer_eq_some.mp (h.ids e he (hgiven e he)), fun id address hget => ?_⟩
  exact (h.pointers id address (pointer_eq_some.mpr hget)).2

/-- A server, and a client that has no connection. Their lists of entries stand for maps. -/
structure Apart (server client : Storage) : Prop where
  serves : server.Serves
  tidy : client.Tidy
  side : client.server = false
  distinct : (server.entries.map (·.name)).Nodup
  distinct' : (client.entries.map (·.name)).Nodup
  queue_outgoing : server.queue_outgoing = true
  queue_outgoing' : client.queue_outgoing = true
  room : server.idmap.length + client.entries.length ≤ 0xffff
  carried : ∀ e ∈ server.entries, e.Carried
  carried' : ∀ e ∈ client.entries, e.Carried

section Meet

variable {uid' : ℕ} {client₁ server₁ client' server' : Storage}

/-- The two sides meet. -/
theorem exists_meeting (hapart : Apart server client) : ∃ s c,
    Meeting server client uid uid' identity self_id s c ∧
    s.established ∧ c.established ∧ Step server s.storage ∧
    s.storage.queue_outgoing = true ∧
    s.storage.idmap.length = server.idmap.length + c.storage.waiting.length ∧
    Shows server s.storage (grantedFrom server.idmap.length c.storage.waiting) ∧
    Adopted client.forget c.storage server.entries ∧
    given uid s.effects =
      ((grantedFrom server.idmap.length c.storage.waiting).map Entry.told).map some := by
  have hadoptable := adoptable_forget (s := client) hapart.serves hapart.distinct
  have hrev : 0x0300 ≤ (Storage.Connection.mk uid' 0x0300).proto_rev := le_refl _
  obtain ⟨client₁, heard, happly, -, hadopted⟩ := applyInitialAssignments_eq hrev hapart.side
    (joining_forget hapart.tidy hapart.distinct') hadoptable
  obtain ⟨server₁, granted, hprocess, hstep, hshows, hqueue₁, hlength, hgranted⟩ :=
    process_requests hapart.serves hapart.queue_outgoing
      (requests_waiting hapart.serves hadopted hapart.room) ⟨uid, 0x0300⟩
  have hdown : arriving 0x0300 ((greeting server identity).map some) = greeting server identity := by
    refine arriving_of_all fun m hm => ?_
    rw [greeting, List.mem_cons, List.mem_append, List.mem_singleton] at hm
    obtain rfl | hm | rfl := hm
    · rfl
    · obtain ⟨e, he, rfl⟩ := List.mem_map.mp hm
      have hlt := hapart.serves.id_lt he
      have hle := hapart.serves.room
      exact (hapart.carried e he).received (by omega)
    · rfl
  have hup : arriving 0x0300 ((clientHello 0 self_id ::
      (client₁.waiting.map Entry.told ++ [clientHelloDone])).map some) =
        clientHello 0x0300 self_id :: (client₁.waiting.map Entry.told ++ [clientHelloDone]) := by
    refine congrArg (clientHello 0x0300 self_id :: ·) (arriving_of_all fun m hm => ?_)
    rw [List.mem_append, List.mem_singleton] at hm
    obtain hm | rfl := hm
    · obtain ⟨c, hc, rfl⟩ := List.mem_map.mp hm
      refine (carried_waiting hapart.serves hadopted hapart.carried' hc).received ?_
      rw [(mem_waiting.mp hc).2]
      decide
    · rfl
  refine ⟨{ established := true, sent := [greeting server identity], storage := server₁
            proto_rev := 0x0300, remote_id := self_id, effects := granted },
    { established := true
      sent := [[clientHello 0 self_id], client₁.waiting.map Entry.told ++ [clientHelloDone]]
      storage := client₁, proto_rev := 0x0300, remote_id := identity, effects := heard },
    ⟨?_, ?_⟩, rfl, rfl, hstep, hqueue₁, hlength, hshows, hadopted, ?_⟩
  · dsimp only
    rw [List.flatten_cons, List.flatten_cons, List.flatten_nil, List.append_nil, List.singleton_append,
      hup]
    exact serverHandshake_eq hapart.serves.values hprocess
  · dsimp only
    rw [List.flatten_cons, List.flatten_nil, List.append_nil, hdown]
    exact clientHandshake_eq happly
  · refine given_to_all (hgranted.trans ?_)
    rw [List.map_map]
    rfl

/-- The client answers with what it has set since, and the server takes it. -/
theorem exists_answers (hapart : Apart server client)
    (h : Adopted client.forget client₁ server.entries) (hstep : Step server server₁)
    (hshows : Shows server server₁
      (grantedFrom server.idmap.length client₁.waiting)) :
    ∃ client' answered server' relayed,
      client₁.processAll ⟨uid', 0x0300⟩ (arriving 0x0300
        (((grantedFrom server.idmap.length client₁.waiting).map Entry.told).map some)) =
          some (client', answered) ∧
      server₁.processAll ⟨uid, 0x0300⟩ (arriving 0x0300 (given uid' answered)) =
          some (server', relayed) ∧ given uid relayed = [] ∧
      Adopted client₁ client' (settledFrom server.idmap.length client₁.waiting) ∧
      Kept server₁ server' ∧ Shows server₁ server'
        (settledFrom server.idmap.length client₁.waiting) := by
  have hlength := length_waiting hapart.serves h
  have hroom := hapart.room
  have hP := adoptable_settled hapart.serves h hapart.room
  have hcarried : ∀ c ∈ client₁.waiting, c.Carried :=
    fun c hc => carried_waiting hapart.serves h hapart.carried' hc
  have hdown : arriving 0x0300
      (((grantedFrom server.idmap.length client₁.waiting).map Entry.told).map some) =
        (grantedFrom server.idmap.length client₁.waiting).map Entry.told := by
    refine arriving_of_all fun m hm => ?_
    obtain ⟨g, hg, rfl⟩ := List.mem_map.mp hm
    obtain ⟨⟨c, i⟩, hp, rfl⟩ := List.mem_map.mp hg
    obtain ⟨-, hlt, hget⟩ := List.mem_zipIdx hp
    have hc : c ∈ client₁.waiting := by
      rw [hget]
      exact List.getElem_mem _
    refine ((hcarried c hc).granted i).received ?_
    show i < 65536
    omega
  obtain ⟨client', answered, hclient', hanswered, hadopted⟩ := process_granted_all h.joining
    (h.server.trans hapart.side) (h.queue_outgoing.trans hapart.queue_outgoing')
    (fun c hc => ⟨(waiting_new hapart.serves h hc).1, (mem_waiting.mp hc).2⟩) hP
    ⟨uid', 0x0300⟩
  have hup : arriving 0x0300 (given uid' answered) =
      (settledFrom server.idmap.length client₁.waiting).flatMap Entry.updates := by
    rw [given_to_all hanswered]
    refine arriving_of_all fun m hm => ?_
    obtain ⟨f, hf, hm⟩ := List.mem_flatMap.mp hm
    obtain ⟨c, hc, i, -, hlt, rfl, -⟩ := mem_settledFrom hf
    refine ((hcarried c hc).settled i).updates_received ?_ m hm
    show i < 65536
    omega
  have hseq : ∀ f ∈ settledFrom server.idmap.length client₁.waiting,
      f.seq_num = {} ∨ (SequenceNumber.mk 0).less f.seq_num := by
    intro f hf
    obtain ⟨c, -, i, -, -, rfl, -⟩ := mem_settledFrom hf
    unfold Entry.settled
    dsimp only
    split
    · next hless => exact .inr hless
    · exact .inl rfl
  have hthere : ∀ f ∈ settledFrom server.idmap.length client₁.waiting,
      ∃ e, server₁.find f.name = some e ∧ e.Like (f.granted f.id) := by
    intro f hf
    obtain ⟨c, -, i, -, -, rfl, hgranted⟩ := mem_settledFrom hf
    exact hshows.taken (c.granted i) hgranted
  obtain ⟨server', relayed, hserver', hkept, hshown, hexcept⟩ :=
    process_updates hstep.sound hP.names hP.values hseq hthere ⟨uid, 0x0300⟩
  rw [hdown]
  refine ⟨client', answered, server', relayed, hclient', ?_, given_to_others hexcept, hadopted, hkept,
    hshown⟩
  rw [hup, hserver']

/-- Where the entry of a name comes from. -/
theorem found_cases (hapart : Apart server client)
    (h : Adopted client.forget client₁ server.entries)
    (hshows : Shows server server₁
      (grantedFrom server.idmap.length client₁.waiting))
    (h' : Shows client₁ client' (settledFrom server.idmap.length client₁.waiting))
    (hshown : Shows server₁ server'
      (settledFrom server.idmap.length client₁.waiting)) (name : Bytes) :
    (∃ c ∈ client₁.waiting, ∃ i < 0xffff, ∃ e e' old, client'.find name = some e ∧
      server'.find name = some e' ∧ e.Like (c.settled i) ∧ e'.Like (c.settled i) ∧
      server.find name = none ∧ client.find name = some old ∧ c = { old with id := 0xffff }) ∨
    (∃ e ∈ server.entries, ∃ e', client'.find name = some e' ∧ e'.Like e ∧
      server'.find name = some e ∧ server.find name = some e) ∨
    (client'.find name = none ∧ server'.find name = none ∧ server.find name = none ∧
      client.find name = none) := by
  have hlength := length_waiting hapart.serves h
  have hroom := hapart.room
  by_cases hwaits : ∃ f ∈ settledFrom server.idmap.length client₁.waiting, f.name = name
  · obtain ⟨f, hf, rfl⟩ := hwaits
    obtain ⟨e, hfind, hlike⟩ := h'.taken f hf
    obtain ⟨e', hfind', hlike'⟩ := hshown.taken f hf
    obtain ⟨c, hc, i, -, hlt, rfl, -⟩ := mem_settledFrom hf
    obtain ⟨-, hnone, old, hold, heq⟩ := waiting_new hapart.serves h hc
    exact .inl ⟨c, hc, i, by omega, e, e', old, hfind, hfind', hlike, hlike', hnone, hold, heq⟩
  · have hnot : ∀ f ∈ settledFrom server.idmap.length client₁.waiting, f.name ≠ name :=
      fun f hf heq => hwaits ⟨f, hf, heq⟩
    have hnames : ∀ c ∈ client₁.waiting, c.name ≠ name := by
      intro c hc heq
      have hmem : c.name ∈ (settledFrom server.idmap.length client₁.waiting).map (·.name) := by
        rw [names_settledFrom]
        exact List.mem_map.mpr ⟨c, hc, rfl⟩
      obtain ⟨f, hf, hname⟩ := List.mem_map.mp hmem
      exact hnot f hf (hname.trans heq)
    have hgranted : ∀ g ∈ grantedFrom server.idmap.length client₁.waiting, g.name ≠ name := by
      intro g hg
      obtain ⟨⟨c, i⟩, hp, rfl⟩ := List.mem_map.mp hg
      obtain ⟨-, hlt, hget⟩ := List.mem_zipIdx hp
      refine hnames c ?_
      rw [hget]
      exact List.getElem_mem _
    have hserver' : server'.find name = server.find name :=
      (hshown.others name hnot).trans (hshows.others name hgranted)
    have hclient' := h'.others name hnot
    cases hfind : server.find name with
    | some e =>
      obtain ⟨he, rfl⟩ := mem_of_find hfind
      obtain ⟨e', hfind', hlike⟩ := h.taken e he
      exact .inr (.inl ⟨e, he, e', hclient'.trans hfind', hlike, hserver'.trans hfind, rfl⟩)
    | none =>
      obtain ⟨hnone, hnone'⟩ := absent h hfind hnames
      exact .inr (.inr ⟨hclient'.trans hnone, hserver'.trans hfind, rfl, hnone'⟩)

/-- The two nodes can go on as a server and a client that agree. -/
theorem start_joined (hapart : Apart server client)
    (h : Adopted client.forget client₁ server.entries) (hstep : Step server server₁)
    (hqueue₁ : server₁.queue_outgoing = true)
    (hlength : server₁.idmap.length = server.idmap.length + client₁.waiting.length)
    (hshows : Shows server server₁
      (grantedFrom server.idmap.length client₁.waiting))
    (h' : Adopted client₁ client' (settledFrom server.idmap.length client₁.waiting))
    (hkept : Kept server₁ server') (hshown : Shows server₁ server'
      (settledFrom server.idmap.length client₁.waiting)) :
    (joined server' client').Start := by
  have hcases := found_cases hapart h hshows h'.toShows hshown
  have hwaiting := length_waiting hapart.serves h
  have hroom := hapart.room
  have hgiven : ∀ e ∈ client'.entries, e.id ≠ 0xffff := by
    intro e he
    have hfind := h'.joining.find_iff.mpr ⟨he, rfl⟩
    obtain ⟨c, -, i, hi, e₁, -, -, hfind', -, hlike, -⟩ | ⟨e₁, he₁, e₂, hfind', hlike, -⟩ |
      ⟨hnone, -⟩ := hcases e.name
    · rw [hfind] at hfind'
      rw [Option.some.inj hfind', hlike.id]
      exact hi.ne
    · rw [hfind] at hfind'
      rw [Option.some.inj hfind', hlike.id]
      have hlt := hapart.serves.id_lt he₁
      have hle := hapart.serves.room
      omega
    · rw [hfind] at hnone
      exact absurd hnone (Option.some_ne_none e)
  have hserver' : server'.server = true :=
    hkept.server.trans (hstep.extend.server.trans hapart.serves.server)
  have hside' : client'.server = false := h'.server.trans (h.server.trans hapart.side)
  refine ⟨fun node => ?_, fun node => ?_, fun node => ?_, fun node => ?_, fun node name => ?_,
    fun name e hfind => ?_, fun link => ⟨rfl, rfl, rfl⟩, fun link => rfl, fun thread => rfl⟩
  · cases node with
    | server => exact hkept.sound
    | client i => exact h'.joining.sound hgiven
  · cases node with
    | server =>
      show server'.idmap.length ≤ 0xffff
      rw [hkept.idmap, hlength]
      omega
    | client i =>
      have hids : ∀ e ∈ server.entries, e.id < 0xffff := by
        intro e he
        have hlt := hapart.serves.id_lt he
        have hle := hapart.serves.room
        omega
      refine h'.length 0xffff (h.length 0xffff (Nat.zero_le _) hids) fun f hf => ?_
      obtain ⟨c, -, i, -, hlt, rfl, -⟩ := mem_settledFrom hf
      show i < 0xffff
      omega
  · cases node with
    | server => exact ⟨fun _ => rfl, fun _ => hserver'⟩
    | client i =>
      refine ⟨fun hset => ?_, fun heq => by cases heq⟩
      exact absurd (hside'.symm.trans hset) Bool.false_ne_true
  · cases node with
    | server => exact hkept.queue_outgoing.trans hqueue₁
    | client i => exact h'.queue_outgoing.trans (h.queue_outgoing.trans hapart.queue_outgoing')
  · cases node with
    | server => rfl
    | client i =>
      show (client'.find name).map Entry.shared = (server'.find name).map Entry.shared
      obtain ⟨c, -, i, -, e, e', -, hfind, hfind', hlike, hlike', -⟩ |
        ⟨e, -, e', hfind, hlike, hfind', -⟩ | ⟨hnone, hnone', -⟩ := hcases name
      · rw [hfind, hfind', Option.map_some, Option.map_some, hlike.shared, hlike'.shared]
      · rw [hfind, hfind', Option.map_some, Option.map_some, hlike.shared]
      · rw [hnone, hnone']
  · have hfound : server'.find name = some e := hfind
    obtain ⟨c, hc, i, -, -, e', -, -, hfind', -, hlike, -⟩ | ⟨e', he', -, -, -, hfind', -⟩ |
      ⟨-, hnone, -⟩ := hcases name
    · rw [hfound] at hfind'
      rw [Option.some.inj hfind', hlike.seq_num]
      exact ((carried_waiting hapart.serves h hapart.carried' hc).settled i).seq_num
    · rw [hfound] at hfind'
      rw [Option.some.inj hfind']
      exact (hapart.carried e' he').seq_num
    · rw [hfound] at hnone
      exact absurd hnone (Option.some_ne_none e)

/-- After the beginning of a connection, and the messages that follow from it, the two nodes have
the same: what the server had, and what only the client had. -/
theorem handshake_agrees (hapart : Apart server client) : ∃ s c,
    Meeting server client uid uid' identity self_id s c ∧
    (∀ s' c', Meeting server client uid uid' identity self_id s' c' → s' = s ∧ c' = c) ∧
    s.established ∧ c.established ∧ ∃ client' answered server' relayed,
      c.storage.processAll ⟨uid', 0x0300⟩ (arriving 0x0300 (given uid s.effects)) =
        some (client', answered) ∧
      s.storage.processAll ⟨uid, 0x0300⟩ (arriving 0x0300 (given uid' answered)) =
        some (server', relayed) ∧
      given uid relayed = [] ∧ (joined server' client').Start ∧ ∀ name,
        server'.GetEntryValue name =
            ((server.find name).or (client.find name)).bind (·.value) ∧
          ∀ e, server.find name = none → client.find name = some e →
            (server'.find name).map (·.seq_num) =
              some (if (SequenceNumber.mk 0).less e.seq_num then e.seq_num else {}) := by
  obtain ⟨s, c, hmeet, hestablished, hestablished', hstep, hqueue₁, hlength, hshows, hadopted,
    hgiven⟩ := exists_meeting hapart
  obtain ⟨client', answered, server', relayed, hclient', hserver', hsilent, hadopted', hkept,
    hshown⟩ := exists_answers hapart hadopted hstep hshows
  refine ⟨s, c, hmeet, fun s' c' => meeting_unique hapart.serves.values hmeet, hestablished,
    hestablished', client', answered, server', relayed, ?_, hserver', hsilent, ?_, fun name => ?_⟩
  · rw [hgiven]
    exact hclient'
  · exact start_joined hapart hadopted hstep hqueue₁ hlength hshows hadopted' hkept hshown
  · unfold GetEntryValue
    obtain ⟨c, -, i, -, -, e', old, -, hfind, -, hlike, hnone, hold, rfl⟩ |
      ⟨e, -, -, -, -, hfind, hfind'⟩ | ⟨-, hnone, hnone', hnone''⟩ :=
        found_cases hapart hadopted hshows hadopted'.toShows hshown name
    · rw [hfind, hnone, hold, Option.none_or, Option.bind_some, Option.bind_some, hlike.value]
      refine ⟨rfl, fun e _ heq => ?_⟩
      rw [← Option.some.inj heq, Option.map_some, hlike.seq_num]
      rfl
    · rw [hfind, hfind', Option.some_or]
      exact ⟨rfl, fun _ hnone => absurd hnone (Option.some_ne_none e)⟩
    · rw [hnone, hnone', hnone'']
      exact ⟨rfl, fun e _ hsome => absurd hsome.symm (Option.some_ne_none e)⟩

/-- A server with a boolean. -/
def alliance : Storage :=
  { entries := [⟨0, [97], some (.boolean true), 0, 0, ⟨5⟩, false, 0⟩], idmap := [some 0]
    queue_outgoing := true, allocated := 1 }

/-- A client that has set another one three times. -/
def board : Storage :=
  { entries := [⟨0, [98], some (.boolean false), 0, 0xffff, ⟨3⟩, false, 0⟩]
    server := false, queue_outgoing := true, allocated := 1 }

theorem apart_board : Apart alliance board := by
  have hcarried : ∀ b, (Value.boolean b).Carried 0x0300 := fun _ _ _ => ⟨trivial, rfl⟩
  have hname : ∀ c : UInt8, CarriedString 0x0300 [c] := fun c =>
    carried_of_length (show 1 < if 0x0300 < 0x0300 then 65536 else 2147483648 by decide)
  refine ⟨⟨⟨?_, ?_, ?_, ?_, ?_, fun id address hget => ?_⟩, rfl, by decide⟩, ⟨?_, ?_, ?_, ?_⟩, rfl,
    by decide, by decide, rfl, rfl, by decide, fun e he => ?_, fun e he => ?_⟩
  any_goals simp [alliance, board]
  · cases id with
    | zero => simpa [alliance, eq_comm] using hget
    | succ id => simp [alliance] at hget
  · rw [List.mem_singleton.mp he]
    exact ⟨hname 97, fun v hv => Option.some.inj hv ▸ hcarried true, by decide, by decide⟩
  · rw [List.mem_singleton.mp he]
    exact ⟨hname 98, fun v hv => Option.some.inj hv ▸ hcarried false, by decide, by decide⟩

theorem handshake_agrees_board : ∃ s c, Meeting alliance board 7 8 [82] [74] s c ∧
    (∀ s' c', Meeting alliance board 7 8 [82] [74] s' c' → s' = s ∧ c' = c) ∧
    s.established ∧ c.established ∧ ∃ client' answered server' relayed,
      c.storage.processAll ⟨8, 0x0300⟩ (arriving 0x0300 (given 7 s.effects)) =
        some (client', answered) ∧
      s.storage.processAll ⟨7, 0x0300⟩ (arriving 0x0300 (given 8 answered)) =
        some (server', relayed) ∧
      given 7 relayed = [] ∧ (joined server' client').Start ∧ ∀ name,
        server'.GetEntryValue name =
            ((alliance.find name).or (board.find name)).bind (·.value) ∧
          ∀ e, alliance.find name = none → board.find name = some e →
            (server'.find name).map (·.seq_num) =
              some (if (SequenceNumber.mk 0).less e.seq_num then e.seq_num else {}) :=
  handshake_agrees apart_board

end Meet

end Wire

end SparxRobot.NetworkTables
