import SparxRobot.NetworkTables.Agreement

/-! An entry that a client gets by an assignment counts from zero, whatever the number of the
server's. -/
namespace SparxRobot.NetworkTables
open Storage

namespace Storage

/-- A program sets an entry to one value after the other. What it says is collected. -/
def setAll (name : Bytes) : List Value → Storage → Option (Storage × List Outgoing)
  | [], s => some (s, [])
  | value :: values, s => do
      let (_, s, effects) ← s.SetEntryValue name (some value)
      let (s, outgoing) ← setAll name values s
      return (s, effects.outgoing ++ outgoing)

/-- Every value is of the same type as the one before and not equal to it. -/
def Changes (value : Value) : List Value → Prop
  | [] => True
  | next :: values => next.type = value.type ∧ ¬ value.equal next ∧ Changes next values

/-- Updates with numbers from n on. -/
def updatesFrom (id n : ℕ) (values : List Value) : List Message :=
  (values.zipIdx n).map fun p => .entryUpdate id p.2 p.1

end Storage

section Setting

variable {s s' : Storage} {e : Entry} {value : Value} {values : List Value} {n : ℕ}

/-- The client counts its changes. -/
theorem setAll_updates (h : s.Sound) (hroom : s.idmap.length ≤ 0xffff)
    (hqueue : s.queue_outgoing = true) (hfind : s.find e.name = some e) (hname : e.name ≠ [])
    (hvalue : e.value = some value) (hnumber : e.seq_num = ⟨n⟩) (hchanges : Changes value values)
    (hlt : n + values.length < 65536) : ∃ s', s.setAll e.name values =
        some (s', (updatesFrom e.id (n + 1) values).map fun msg => ⟨msg, none⟩) ∧
      s'.GetEntryValue e.name = (value :: values).getLast? := by
  induction values generalizing s e value n with
  | nil => exact ⟨s, rfl, by rw [GetEntryValue, hfind, Option.bind_some, hvalue]; rfl⟩
  | cons next values ih =>
    obtain ⟨htype, hother, hchanges⟩ := hchanges
    rw [List.length_cons] at hlt
    have hnext : e.seq_num.next = ⟨n + 1⟩ := by
      rw [hnumber, SequenceNumber.next, if_neg (by dsimp only; omega)]
    obtain ⟨r, s₁, effects, hset, hcases⟩ := setEntryValue_cases next h hroom hqueue hfind
    obtain ⟨hrefused, -⟩ | ⟨old, c, hold, hequal, -⟩ | ⟨c, hout, rfl⟩ := hcases
    · rw [hvalue, Option.any_some, decide_eq_true_iff] at hrefused
      exact absurd htype.symm (hrefused.resolve_left hname)
    · obtain rfl := Option.some.inj (hvalue.symm.trans hold)
      exact absurd hequal hother
    · obtain ⟨he, -⟩ := mem_of_find hfind
      have hkept := @kept_revise s e next h he e.seq_num.next c
      have hfind' := @find_revise s e e.name next h he e.seq_num.next c
      rw [if_pos rfl] at hfind'
      obtain ⟨s', hall, hlast⟩ := @ih (s.revise e next e.seq_num.next c)
        { e with value := next, seq_num := e.seq_num.next } next (n + 1) hkept.sound
        (by rw [hkept.idmap]; exact hroom) (hkept.queue_outgoing.trans hqueue) hfind' hname rfl
        hnext hchanges (by omega)
      refine ⟨s', ?_, hlast.trans List.getLast?_cons_cons.symm⟩
      rw [setAll, hset, Option.bind_eq_bind, Option.bind_some]
      dsimp only at hall ⊢
      rw [hall, hout, hnext]
      rfl

/-- The server ignores the numbers that it has passed. -/
theorem process_passed (h : s.Sound) (he : e ∈ s.entries) {m : ℕ} (hnumber : e.seq_num = ⟨n⟩)
    (hnear : n < m + 32768) (hle : m + values.length ≤ n + 1) (conn : Storage.Connection) :
    ∃ effects, s.processAll conn (updatesFrom e.id m values) = some (s, effects) := by
  induction values generalizing m with
  | nil => exact ⟨{}, rfl⟩
  | cons next values ih =>
    rw [List.length_cons] at hle
    obtain ⟨effects, hall⟩ := @ih (m + 1) (by omega) (by omega)
    obtain ⟨s', effects', hprocess, hcases⟩ := processUpdate_cases h he conn m next
    obtain ⟨-, rfl, -⟩ | ⟨hlater, -⟩ := hcases
    · exact ⟨_, processAll_cons hprocess hall⟩
    · rw [hnumber] at hlater
      exact absurd (SequenceNumber.lessEqual_of_le (by omega) hnear) hlater

/-- It takes those that come next. -/
theorem process_next (h : s.Sound) (hfind : s.find e.name = some e) (hnumber : e.seq_num = ⟨n⟩)
    (conn : Storage.Connection) : ∃ s' effects,
    s.processAll conn (updatesFrom e.id (n + 1) values) = some (s', effects) ∧
      s'.GetEntryValue e.name = if values = [] then e.value else values.getLast? := by
  induction values generalizing s e n with
  | nil =>
    refine ⟨s, {}, rfl, ?_⟩
    rw [if_pos rfl, GetEntryValue, hfind, Option.bind_some]
  | cons next values ih =>
    obtain ⟨he, -⟩ := mem_of_find hfind
    obtain ⟨s₁, effects₁, hprocess, hcases⟩ := processUpdate_cases h he conn (n + 1) next
    obtain ⟨hle, -⟩ | ⟨-, rfl, -⟩ := hcases
    · rw [hnumber] at hle
      exact absurd hle (SequenceNumber.not_lessEqual_succ n)
    · have hkept := @kept_revise s e next h he ⟨n + 1⟩ e.IsPersistent
      have hfind' := @find_revise s e e.name next h he ⟨n + 1⟩ e.IsPersistent
      rw [if_pos rfl] at hfind'
      obtain ⟨s', effects', hall, hlast⟩ := @ih (s.revise e next ⟨n + 1⟩ e.IsPersistent)
        { e with value := next, seq_num := ⟨n + 1⟩ } (n + 1) hkept.sound hfind' rfl
      refine ⟨s', _, processAll_cons hprocess hall, hlast.trans ?_⟩
      rw [if_neg (List.cons_ne_nil _ _)]
      split
      · next hnil => rw [hnil, List.getLast?_singleton]
      · next hcons => rw [List.getLast?_cons_of_ne_nil hcons]

/-- What becomes of all of them. -/
theorem process_updatesFrom (h : s.Sound) (hfind : s.find e.name = some e)
    (hnumber : e.seq_num = ⟨n⟩) (hnear : n ≤ 32768) (conn : Storage.Connection) : ∃ s' effects,
    s.processAll conn (updatesFrom e.id 1 values) = some (s', effects) ∧
      s'.GetEntryValue e.name = if values.length ≤ n then e.value else values.getLast? := by
  have hsplit : updatesFrom e.id 1 values = updatesFrom e.id 1 (values.take n) ++
      updatesFrom e.id (1 + (values.take n).length) (values.drop n) := by
    unfold updatesFrom
    rw [← List.map_append, ← List.zipIdx_append, List.take_append_drop]
  obtain ⟨he, -⟩ := mem_of_find hfind
  have hle : (values.take n).length ≤ n := List.length_take_le ..
  obtain ⟨effects, hpassed⟩ := @process_passed s e (values.take n) n h he 1 hnumber (by omega)
    (by omega) conn
  rw [hsplit]
  by_cases hfew : values.length ≤ n
  · have hnone : values.drop n = [] := List.drop_eq_nil_of_le hfew
    rw [hnone, if_pos hfew]
    refine ⟨s, effects, (List.append_nil _).symm ▸ hpassed, ?_⟩
    rw [GetEntryValue, hfind, Option.bind_some]
  · have hlength : (values.take n).length = n := List.length_take_of_le (by omega)
    have hmore : values.drop n ≠ [] := by
      rw [Ne, List.drop_eq_nil_iff]
      exact hfew
    rw [hlength, Nat.add_comm, if_neg hfew]
    obtain ⟨s', effects', hnext, hlast⟩ := @process_next s e (values.drop n) n h hfind hnumber conn
    obtain ⟨effects'', hall, -⟩ := processAll_append hpassed hnext
    refine ⟨s', effects'', hall, hlast.trans ?_⟩
    rw [if_neg hmore, List.getLast?_drop, if_neg hfew]

theorem Storage.Sound.joining (h : s.Sound) (hdistinct : (s.entries.map (·.name)).Nodup)
    (hroom : s.idmap.length ≤ 0xffff) : s.Joining := by
  refine ⟨h.tidy, hdistinct, fun e he _ => pointer_eq_some.mpr (h.ids e he),
    fun id address hget => ?_⟩
  obtain ⟨e, he, haddress, rfl⟩ := h.pointers id address (pointer_eq_some.mp hget)
  have hlt := h.id_lt he
  exact ⟨by omega, e, he, haddress, rfl⟩

/-- A client that does not have an entry gets it, but not its number. -/
theorem process_new (h : s.Joining) (hside : s.server = false) (hnew : s.find e.name = none)
    (hfree : s.pointer e.id = none) (hid : e.id ≠ 0xffff) (hvalue : e.value ≠ none)
    (conn : Storage.Connection) : ∃ s' effects entry,
    s.ProcessIncoming conn e.told = some (s', effects) ∧ Stored s s' entry ∧
      entry.Like (e.granted e.id) := by
  obtain ⟨value, hvalue⟩ := Option.ne_none_iff_exists'.mp hvalue
  have hgetD : e.value.getD .unassigned = value := by rw [hvalue, Option.getD_some]
  have hat : s.entryAt e.name = { address := s.allocated, name := e.name } := by
    rw [entryAt, hnew, Option.getD_none]
  obtain ⟨s', hstore, hstored⟩ := @Joining.store s { s.entryAt e.name with
    value := value, flags := e.flags, id := e.id } h (by dsimp only; rw [entryAt_name])
    (by dsimp only; rw [entryAt_name, hat]) hfree hid (Option.some_ne_none value)
  refine ⟨s', { notifications := s.notification e.name value NT_NOTIFY_NEW }, _, ?_, hstored,
    ⟨entryAt_name s e.name, rfl, hvalue.symm, rfl, by dsimp only; rw [hat]; rfl⟩⟩
  unfold ProcessIncoming Entry.told
  rw [hgetD]
  dsimp only at hstore ⊢
  rw [hside, if_neg Bool.false_ne_true, assignOnClient, if_neg hid]
  dsimp only
  rw [pointer_growIdmap, hfree]
  have hfind : (s.growIdmap e.id).find e.name = none := hnew
  have hat' : (s.growIdmap e.id).entryAt e.name = s.entryAt e.name := rfl
  rw [hfind]
  dsimp only
  rw [hat', growIdmap_put, hstore]
  rfl

theorem updates_arriving {id : ℕ} (hid : id < 65536) (hvalues : ∀ v ∈ values, v.Carried 0x0300)
    (hlt : n + values.length ≤ 65536) :
    arriving 0x0300 ((updatesFrom id n values).map some) = updatesFrom id n values := by
  refine arriving_of_all fun m hm => ?_
  obtain ⟨⟨v, i⟩, hp, rfl⟩ := List.mem_map.mp hm
  obtain ⟨-, hi, hget⟩ := List.mem_zipIdx hp
  have hv : v ∈ values := by
    rw [hget]
    exact List.getElem_mem _
  rw [Message.received, Nat.mod_eq_of_lt hid, Nat.mod_eq_of_lt (by omega),
    (hvalues v hv 0x0300 fun hrev => hrev).2]

/-- The first changes that a client makes to an entry which it got with the number n are lost:
the server ignores n of them. When there are no more, the two differ. -/
theorem first_updates_lost {server client : Storage} {uid uid' : ℕ} (hserver : server.Sound)
    (hfind : server.find e.name = some e) (hvalue : e.value = some value) (hcarried : e.Carried)
    (hid : e.id < 0xffff) (hname : e.name ≠ []) (hnear : e.seq_num.value ≤ 32768)
    (hclient : client.Sound) (hdistinct : (client.entries.map (·.name)).Nodup)
    (hroom : client.idmap.length ≤ 0xffff) (hside : client.server = false)
    (hqueue : client.queue_outgoing = true) (hnew : client.find e.name = none)
    (hfree : client.pointer e.id = none) (hvalues : ∀ v ∈ values, v.Carried 0x0300)
    (hchanges : Changes value values) (hlt : values.length < 65536) :
    ∃ client₁ heard client₂ out server' relayed,
      client.processAll ⟨uid', 0x0300⟩ (arriving 0x0300 [some e.told]) = some (client₁, heard) ∧
      client₁.setAll e.name values = some (client₂, out) ∧
      server.processAll ⟨uid, 0x0300⟩ (arriving 0x0300 (out.map fun o => some o.msg)) =
        some (server', relayed) ∧
      client₂.GetEntryValue e.name = (value :: values).getLast? ∧
      server'.GetEntryValue e.name =
        if values.length ≤ e.seq_num.value then some value else values.getLast? := by
  have htold : arriving 0x0300 ([e.told].map some) = [e.told] := by
    refine arriving_of_all fun m hm => ?_
    rw [List.mem_singleton.mp hm]
    exact hcarried.received (by omega)
  obtain ⟨client₁, heard, entry, hprocess, hstored, hlike⟩ := process_new
    (hclient.joining hdistinct hroom) hside hnew hfree hid.ne
    (by rw [hvalue]; exact Option.some_ne_none _) ⟨uid', 0x0300⟩
  have hentryname : entry.name = e.name := hlike.name
  have hentryid : entry.id = e.id := hlike.id
  have hsound : client₁.Sound := by
    refine hstored.joining.sound fun c hc => ?_
    have hfound := hstored.joining.find_iff.mpr ⟨hc, rfl⟩
    rw [hstored.find] at hfound
    split at hfound
    · rw [← Option.some.inj hfound, hentryid]
      exact hid.ne
    · have hlt := hclient.id_lt (mem_of_find hfound).1
      omega
  have hroom₁ : client₁.idmap.length ≤ 0xffff := by
    rw [hstored.length, hentryid]
    omega
  have hfound : client₁.find entry.name = some entry := by rw [hstored.find, if_pos rfl]
  obtain ⟨client₂, hset, hlast⟩ := setAll_updates hsound hroom₁
    (hstored.queue_outgoing.trans hqueue) hfound (by rw [hentryname]; exact hname)
    (hlike.value.trans hvalue) hlike.seq_num hchanges (by omega)
  obtain ⟨server', relayed, hserver', hshown⟩ := @process_updatesFrom server e values
    e.seq_num.value hserver hfind rfl hnear ⟨uid, 0x0300⟩
  rw [hentryname] at hset hlast
  have hreceived := @updates_arriving values 1 e.id (by omega) hvalues (by omega)
  have hempty : client₁.processAll ⟨uid', 0x0300⟩ [] = some (client₁, {}) := rfl
  refine ⟨client₁, heard.append {}, client₂, _, server', relayed, ?_, hset, ?_, hlast, ?_⟩
  · rw [List.map_singleton] at htold
    rw [htold]
    exact processAll_cons hprocess hempty
  · have hout : ((updatesFrom entry.id (0 + 1) values).map fun msg => (⟨msg, none⟩ : Outgoing)).map
        (fun o => some o.msg) = (updatesFrom e.id 1 values).map some := by
      rw [List.map_map, hentryid]
      rfl
    rw [hout, hreceived]
    exact hserver'
  · rw [hshown, hvalue]

/-- A client without entries. -/
def station : Storage := { server := false, queue_outgoing := true }

theorem first_updates_lost_station : ∃ client₁ heard client₂ out server' relayed,
    station.processAll ⟨8, 0x0300⟩ (arriving 0x0300
      [some (Entry.told ⟨0, [97], some (.boolean true), 0, 0, ⟨5⟩, false, 0⟩)]) =
        some (client₁, heard) ∧
    client₁.setAll [97] [.boolean false, .boolean true, .boolean false] = some (client₂, out) ∧
    alliance.processAll ⟨7, 0x0300⟩ (arriving 0x0300 (out.map fun o => some o.msg)) =
      some (server', relayed) ∧
    client₂.GetEntryValue [97] = some (.boolean false) ∧
    server'.GetEntryValue [97] = some (.boolean true) := by
  have hapart := apart_board
  have hsound : station.Sound :=
    ⟨fun e he => absurd he List.not_mem_nil, fun e he => absurd he List.not_mem_nil,
      fun e he => absurd he List.not_mem_nil, fun e he => absurd he List.not_mem_nil,
      fun e he => absurd he List.not_mem_nil, fun id address hget => by simp [station] at hget⟩
  refine @first_updates_lost ⟨0, [97], some (.boolean true), 0, 0, ⟨5⟩, false, 0⟩ (.boolean true)
    [.boolean false, .boolean true, .boolean false] alliance station 7 8 hapart.serves.toSound
    rfl rfl (hapart.carried _ (.head _)) (by decide) (by decide) (by decide) hsound List.nodup_nil
    (by decide) rfl rfl rfl rfl (fun v hv => ?_) ?_ (by decide)
  · simp only [List.mem_cons, List.not_mem_nil, or_false] at hv
    obtain rfl | rfl | rfl := hv <;> exact fun _ _ => ⟨trivial, rfl⟩
  · exact ⟨rfl, by decide, rfl, by decide, rfl, by decide, trivial⟩

end Setting

end SparxRobot.NetworkTables
