import SparxRobot.NetworkTables.Change
import SparxRobot.NetworkTables.Handshake

/-! A client whose entries wait for the ids of a server. -/
namespace SparxRobot.NetworkTables

/-- The same but for what is not said. -/
structure Entry.Like (e e' : Entry) : Prop where
  name : e.name = e'.name
  id : e.id = e'.id
  value : e.value = e'.value
  flags : e.flags = e'.flags
  seq_num : e.seq_num = e'.seq_num

/-- What is said of an entry with a value. -/
def Entry.told (e : Entry) : Message :=
  .entryAssign e.name e.id e.seq_num.value (e.value.getD .unassigned) e.flags

/-- An entry as the server creates it. -/
def Entry.granted (e : Entry) (id : ℕ) : Entry := { e with id := id, seq_num := {} }

/-- An entry that waited for its id. Its number stays if it looks later than the server's. -/
def Entry.settled (e : Entry) (id : ℕ) : Entry :=
  { e with id := id, seq_num := if (SequenceNumber.mk 0).less e.seq_num then e.seq_num else {} }

/-- What the server does not know of an entry yet. -/
def Entry.updates (e : Entry) : List Message :=
  if (SequenceNumber.mk 0).less e.seq_num then
    [.entryUpdate e.id e.seq_num.value (e.value.getD .unassigned)]
  else []

namespace Storage

/-- An entry that waits for an id has 0xffff instead, and no pointer leads to it. -/
structure Joining (s : Storage) : Prop extends Tidy s where
  distinct : (s.entries.map (·.name)).Nodup
  ids : ∀ e ∈ s.entries, e.id ≠ 0xffff → s.pointer e.id = some e.address
  pointers : ∀ id address, s.pointer id = some address →
    id ≠ 0xffff ∧ ∃ e ∈ s.entries, e.address = address ∧ e.id = id

section Putting

variable {s : Storage} {entry e : Entry} {name : Bytes} {id : ℕ}

theorem pointer_eq_some {address : ℕ} :
    s.pointer id = some address ↔ s.idmap[id]? = some (some address) := by
  unfold pointer
  cases s.idmap[id]? with
  | none => simp
  | some p => simp

theorem Tidy.distinct_put (h : Tidy s) (haddress : entry.address = (s.entryAt entry.name).address)
    (hdistinct : (s.entries.map (·.name)).Nodup) : ((s.put entry).entries.map (·.name)).Nodup := by
  unfold Storage.put
  split
  · have hsame : (s.entries.map fun e =>
        if e.address = entry.address then entry else e).map (·.name) = s.entries.map (·.name) := by
      rw [List.map_map]
      refine List.map_congr_left fun e he => ?_
      dsimp only [Function.comp]
      split
      · next heq => exact ((h.address_eq haddress he).mp heq).symm
      · rfl
    rw [hsame]
    exact hdistinct
  · next hnot =>
    rw [List.map_append, List.nodup_append]
    refine ⟨hdistinct, List.nodup_singleton _, fun name hname name' hname' heq => hnot ?_⟩
    obtain ⟨e, he, rfl⟩ := List.mem_map.mp hname
    rw [List.map_singleton, List.mem_singleton] at hname'
    rw [← (h.address_eq haddress he).mpr (heq.trans hname')]
    exact h.allocated e he

/-- An entry that waited, or was not there, has got an id that no other entry has. -/
structure Stored (s s' : Storage) (entry : Entry) : Prop where
  joining : Joining s'
  find : ∀ name, s'.find name = if name = entry.name then some entry else s.find name
  pointer : ∀ id, s'.pointer id = if id = entry.id then some entry.address else s.pointer id
  length : s'.idmap.length = max s.idmap.length (entry.id + 1)
  server : s'.server = s.server
  queue_outgoing : s'.queue_outgoing = s.queue_outgoing

theorem pointer_growIdmap (s : Storage) (id id' : ℕ) :
    (s.growIdmap id).pointer id' = s.pointer id' := by
  unfold pointer growIdmap
  dsimp only
  rw [List.getElem?_append]
  split
  · rfl
  · next hle =>
    rw [List.getElem?_replicate, List.getElem?_eq_none (Nat.le_of_not_lt hle)]
    split <;> rfl

theorem length_growIdmap (s : Storage) (id : ℕ) :
    (s.growIdmap id).idmap.length = max s.idmap.length (id + 1) := by
  unfold growIdmap
  rw [List.length_append, List.length_replicate]
  omega

theorem Joining.store (h : Joining s) (haddress : entry.address = (s.entryAt entry.name).address)
    (hwaits : (s.entryAt entry.name).id = 0xffff) (hfree : s.pointer entry.id = none)
    (hid : entry.id ≠ 0xffff) (hvalue : entry.value ≠ none) : ∃ s',
    ((s.put entry).growIdmap entry.id).setId entry.id (some entry.address) = some s' ∧
      Stored s s' entry := by
  have htidy := h.put haddress hvalue
  have hlength : ((s.put entry).growIdmap entry.id).idmap.length =
      max s.idmap.length (entry.id + 1) := by rw [length_growIdmap, put_idmap]
  have hlt : entry.id < ((s.put entry).growIdmap entry.id).idmap.length := by omega
  refine ⟨_, if_pos hlt, ?_⟩
  have hpointer : ∀ id, ({ (s.put entry).growIdmap entry.id with
      idmap := ((s.put entry).growIdmap entry.id).idmap.set entry.id (some entry.address) } :
        Storage).pointer id = if id = entry.id then some entry.address else s.pointer id := by
    intro id
    have hold : ((s.put entry).growIdmap entry.id).pointer id = s.pointer id := by
      rw [pointer_growIdmap, Storage.pointer, put_idmap, Storage.pointer]
    unfold Storage.pointer at hold ⊢
    dsimp only
    split
    · next heq =>
      subst heq
      rw [List.getElem?_set_self hlt, Option.getD_some]
    · next hne => rw [List.getElem?_set_ne (Ne.symm hne), hold]
  refine ⟨⟨⟨htidy.names, htidy.addresses, htidy.allocated, htidy.values⟩,
    h.distinct_put haddress h.distinct, fun e he hgiven => ?_,
    fun id address hget => ?_⟩, h.find_put haddress hvalue, hpointer, ?_, put_server,
    put_queue_outgoing⟩
  · rw [hpointer]
    obtain rfl | ⟨hold, hne⟩ := (h.mem_put haddress).mp he
    · exact if_pos rfl
    · have hother : e.id ≠ entry.id := by
        intro heq
        have hthere := h.ids e hold hgiven
        rw [heq, hfree] at hthere
        exact absurd hthere.symm (Option.some_ne_none _)
      rw [if_neg hother, h.ids e hold hgiven]
  · rw [hpointer] at hget
    split at hget
    · next heq =>
      subst heq
      exact ⟨hid, entry, (h.mem_put haddress).mpr (.inl rfl), Option.some.inj hget, rfl⟩
    · obtain ⟨hgiven, e, he, heq, rfl⟩ := h.pointers id address hget
      refine ⟨hgiven, e, (h.mem_put haddress).mpr (.inr ⟨he, fun hname => ?_⟩), heq, rfl⟩
      rw [entryAt, h.find_iff.mpr ⟨he, hname⟩, Option.getD_some] at hwaits
      exact hgiven hwaits
  · dsimp only
    rw [List.length_set, hlength]

end Putting

section Adopting

variable {s s' s'' : Storage} {entry e c : Entry} {P : List Entry} {id : ℕ} {value : Value}

/-- The entries of a list are as they are there, and the others as before. -/
structure Shows (s s' : Storage) (P : List Entry) : Prop where
  taken : ∀ e ∈ P, ∃ e', s'.find e.name = some e' ∧ e'.Like e
  others : ∀ name, (∀ e ∈ P, e.name ≠ name) → s'.find name = s.find name

theorem shows_nil : Shows s s [] := ⟨fun _ he => absurd he List.not_mem_nil, fun _ _ => rfl⟩

theorem Shows.cons (h : Shows s' s'' P)
    (hfind : ∀ name, s'.find name = if name = entry.name then some entry else s.find name)
    (hlike : entry.Like e) (hnew : ∀ e' ∈ P, e'.name ≠ e.name) : Shows s s'' (e :: P) := by
  refine ⟨fun e' he' => ?_, fun name hname => ?_⟩
  · obtain rfl | he' := List.mem_cons.mp he'
    · refine ⟨entry, ?_, hlike⟩
      rw [h.others _ hnew, hfind, if_pos hlike.name.symm]
    · exact h.taken e' he'
  · rw [List.forall_mem_cons] at hname
    rw [h.others name hname.2, hfind, if_neg]
    rw [hlike.name]
    exact Ne.symm hname.1

/-- The client has taken the entries of a list. -/
structure Adopted (s s' : Storage) (P : List Entry) : Prop extends Shows s s' P where
  joining : Joining s'
  pointer : ∀ id, (∀ e ∈ P, e.id ≠ id) → s'.pointer id = s.pointer id
  length : ∀ n, s.idmap.length ≤ n → (∀ e ∈ P, e.id < n) → s'.idmap.length ≤ n
  server : s'.server = s.server
  queue_outgoing : s'.queue_outgoing = s.queue_outgoing

/-- What the entries have to be to be adopted. -/
structure Adoptable (s : Storage) (P : List Entry) : Prop where
  names : (P.map (·.name)).Nodup
  ids : (P.map (·.id)).Nodup
  given : ∀ e ∈ P, e.id ≠ 0xffff
  values : ∀ e ∈ P, e.value ≠ none
  waits : ∀ e ∈ P, (s.entryAt e.name).id = 0xffff
  free : ∀ e ∈ P, s.pointer e.id = none

theorem adopted_nil (h : Joining s) : Adopted s s [] :=
  ⟨shows_nil, h, fun _ _ => rfl, fun _ hle _ => hle, rfl, rfl⟩

theorem Stored.rest (h : Stored s s' entry) (hlike : entry.Like e) (hP : Adoptable s (e :: P)) :
    Adoptable s' P := by
  have hnames := List.nodup_cons.mp hP.names
  have hids := List.nodup_cons.mp hP.ids
  refine ⟨hnames.2, hids.2, fun e' he' => hP.given e' (.tail _ he'),
    fun e' he' => hP.values e' (.tail _ he'), fun e' he' => ?_, fun e' he' => ?_⟩
  · have hne : e'.name ≠ entry.name := by
      rw [hlike.name]
      exact fun heq => hnames.1 (List.mem_map.mpr ⟨e', he', heq⟩)
    have hwaits := hP.waits e' (.tail _ he')
    unfold entryAt at hwaits ⊢
    rw [h.find, if_neg hne]
    cases hfind : s.find e'.name with
    | none => rfl
    | some old => rwa [hfind] at hwaits
  · have hne : e'.id ≠ entry.id := by
      rw [hlike.id]
      exact fun heq => hids.1 (List.mem_map.mpr ⟨e', he', heq⟩)
    rw [h.pointer, if_neg hne]
    exact hP.free e' (.tail _ he')

theorem Stored.adopted (h : Stored s s' entry) (hlike : entry.Like e)
    (hnew : ∀ e' ∈ P, e'.name ≠ e.name) (h' : Adopted s' s'' P) : Adopted s s'' (e :: P) := by
  refine ⟨h'.toShows.cons h.find hlike hnew, h'.joining, fun id hid => ?_, fun n hle hlt => ?_,
    h'.server.trans h.server, h'.queue_outgoing.trans h.queue_outgoing⟩
  · rw [List.forall_mem_cons] at hid
    rw [h'.pointer id hid.2, h.pointer, if_neg]
    rw [hlike.id]
    exact Ne.symm hid.1
  · rw [List.forall_mem_cons] at hlt
    refine h'.length n ?_ hlt.2
    have hlt' := hlt.1
    rw [h.length, hlike.id]
    omega

/-- The client takes what a server has that it had not reached before. -/
theorem applyInitial_told (h : Joining s) {conn : Connection} (hrev : 0x0300 ≤ conn.proto_rev)
    (hP : Adoptable s (e :: P)) : ∃ s' effects entry,
    s.applyInitial conn true e.told = some (s', effects, []) ∧ effects.outgoing = [] ∧
      Stored s s' entry ∧ entry.Like e := by
  obtain ⟨value, hvalue⟩ := Option.ne_none_iff_exists'.mp (hP.values e (.head _))
  have hid := hP.given e (.head _)
  have hname : (s.entryAt e.name).name = e.name := entryAt_name s e.name
  obtain ⟨s', hstore, hstored⟩ := @Joining.store s { s.entryAt e.name with
      value := value, flags := e.flags, seq_num := e.seq_num, id := e.id } h
    (by rw [hname]) (by rw [hname]; exact hP.waits e (.head _)) (hP.free e (.head _)) hid
    (Option.some_ne_none value)
  have hlike : ({ s.entryAt e.name with
      value := value, flags := e.flags, seq_num := e.seq_num, id := e.id } : Entry).Like e :=
    ⟨hname, rfl, hvalue.symm, rfl, rfl⟩
  unfold applyInitial Entry.told
  rw [hvalue, Option.getD_some]
  dsimp only
  rw [if_neg hid]
  cases hfind : s.find e.name with
  | none =>
    refine ⟨s', { notifications := s.notification e.name value NT_NOTIFY_NEW }, _, ?_, rfl, hstored,
      hlike⟩
    dsimp only at hstore ⊢
    rw [hstore]
    rfl
  | some old =>
    have hat : s.entryAt e.name = old := by rw [entryAt, hfind, Option.getD_some]
    have hnew : ¬ ((!true) = true ∧
        (SequenceNumber.mk e.seq_num.value).lessEqual old.seq_num = true) :=
      fun hold => absurd hold.1 Bool.false_ne_true
    refine ⟨s', ?_, _, ?_, ?_, hstored, hlike⟩
    swap
    · dsimp only at hstore ⊢
      rw [hat] at hstore
      rw [if_neg hnew, if_pos (decide_eq_true hrev), hstore]
      rfl
    · rfl

theorem names_ne (hP : Adoptable s (e :: P)) : ∀ e' ∈ P, e'.name ≠ e.name :=
  fun e' he' heq => (List.nodup_cons.mp hP.names).1 (List.mem_map.mpr ⟨e', he', heq⟩)

theorem applyInitial_all {conn : Connection} (hrev : 0x0300 ≤ conn.proto_rev) (h : Joining s)
    (hP : Adoptable s P) (effects : Effects) : ∃ s' effects',
    (P.map Entry.told).foldlM (fun (s, effects, update_msgs) msg => do
      let (s, effects', update_msgs') ← s.applyInitial conn true msg
      return (s, Effects.append effects effects', update_msgs ++ update_msgs'))
      ((s, effects, []) : Storage × Effects × List Message) = some (s', effects', []) ∧
      effects'.outgoing = effects.outgoing ∧ Adopted s s' P := by
  induction P generalizing s effects with
  | nil => exact ⟨s, effects, rfl, rfl, adopted_nil h⟩
  | cons e P ih =>
    obtain ⟨s₁, effects₁, entry, happly, hnone, hstored, hlike⟩ := applyInitial_told h hrev hP
    obtain ⟨s', effects', hall, houtgoing, hadopted⟩ :=
      ih hstored.joining (hstored.rest hlike hP) (effects.append effects₁)
    refine ⟨s', effects', ?_, ?_, hstored.adopted hlike (names_ne hP) hadopted⟩
    · rw [List.map_cons, List.foldlM_cons]
      dsimp only
      rw [happly]
      exact hall
    · rw [houtgoing, Effects.append, hnone, List.append_nil]

/-- The entry that was stored is written once more. -/
theorem Stored.rewrite (h : Stored s s' entry) (hvalue : e.value ≠ none)
    (haddress : e.address = entry.address) (hname : e.name = entry.name) (hid : e.id = entry.id)
    (c : Bool) : Stored s ((s'.dirty c).put e) e := by
  have hat : s'.entryAt e.name = entry := by
    rw [entryAt, h.find, if_pos hname, Option.getD_some]
  have haddress' : e.address = (s'.entryAt e.name).address := by rw [hat, haddress]
  have hpointer : ∀ id, (s'.put e).pointer id = s'.pointer id := by
    intro id
    rw [Storage.pointer, put_idmap, Storage.pointer]
  have htidy := h.joining.put haddress' hvalue
  rw [put_dirty]
  refine ⟨⟨⟨htidy.names, htidy.addresses, htidy.allocated, htidy.values⟩,
    h.joining.distinct_put haddress' h.joining.distinct, fun e' he' hgiven => ?_,
    fun id address hget => ?_⟩, fun name => ?_, fun id => ?_, ?_, put_server.trans h.server,
    put_queue_outgoing.trans h.queue_outgoing⟩
  · refine (hpointer e'.id).trans ?_
    obtain rfl | ⟨hold, -⟩ := (h.joining.mem_put haddress').mp he'
    · rw [h.pointer, if_pos hid, haddress]
    · exact h.joining.ids e' hold hgiven
  · obtain ⟨hgiven, e', he', heq, rfl⟩ :=
      h.joining.pointers id address ((hpointer id).symm.trans hget)
    refine ⟨hgiven, ?_⟩
    by_cases hsame : e'.name = e.name
    · have he : e' = entry := by
        rw [entryAt, h.joining.find_iff.mpr ⟨he', hsame⟩, Option.getD_some] at hat
        exact hat
      subst he
      exact ⟨e, (h.joining.mem_put haddress').mpr (.inl rfl), haddress.trans heq, hid⟩
    · exact ⟨e', (h.joining.mem_put haddress').mpr (.inr ⟨he', hsame⟩), heq, rfl⟩
  · refine (h.joining.find_put haddress' hvalue name).trans ?_
    rw [h.find, hname]
    split <;> rfl
  · refine (hpointer id).trans ?_
    rw [h.pointer, hid, haddress]
  · refine (congrArg List.length put_idmap).trans ?_
    rw [h.length, hid]

theorem growIdmap_put (s : Storage) (entry : Entry) (id : ℕ) :
    (s.growIdmap id).put entry = (s.put entry).growIdmap id := by
  unfold put growIdmap
  dsimp only
  split <;> rfl

/-- The client gets the id it has asked for. -/
theorem process_granted (h : Joining s) (hserver : s.server = false)
    (hqueue : s.queue_outgoing = true) (hc : c ∈ s.entries) (hwaits : c.id = 0xffff)
    (hfree : s.pointer id = none) (hid : id ≠ 0xffff) (conn : Connection) : ∃ s' effects entry,
    s.ProcessIncoming conn (c.granted id).told = some (s', effects) ∧ Stored s s' entry ∧
      entry.Like (c.settled id) ∧
      effects.outgoing = (c.settled id).updates.map fun msg => ⟨msg, none⟩ := by
  obtain ⟨value, hvalue⟩ := Option.ne_none_iff_exists'.mp (h.values c hc)
  have hgetD : c.value.getD .unassigned = value := by rw [hvalue, Option.getD_some]
  have hfind : s.find c.name = some c := h.find_iff.mpr ⟨hc, rfl⟩
  have hat : s.entryAt c.name = c := by rw [entryAt, hfind, Option.getD_some]
  obtain ⟨s₁, hstore, hstored⟩ := @Joining.store s { c with id := id } h
    (by rw [hat]) (by rw [hat]; exact hwaits) hfree hid (h.values c hc)
  have hprocess : s.ProcessIncoming conn (c.granted id).told =
      (s₁.reassign conn { c with id := id } true id c.name {} value c.flags).bind
        fun p => some (p.1, { p.2 with outgoing := [] ++ p.2.outgoing }) := by
    unfold ProcessIncoming Entry.told Entry.granted
    rw [hgetD]
    dsimp only
    rw [hserver, if_neg Bool.false_ne_true, assignOnClient, if_neg hid]
    dsimp only
    rw [pointer_growIdmap, hfree]
    have hfind' : (s.growIdmap id).find c.name = some c := hfind
    rw [hfind']
    dsimp only
    rw [growIdmap_put, hstore]
    simp only [Option.bind_eq_bind, Option.bind_some, ne_eq, not_true_eq_false, ↓reduceIte]
    rfl
  rw [hprocess]
  unfold reassign
  by_cases hless : (SequenceNumber.mk 0).less c.seq_num
  · have hqueue' : s₁.queue_outgoing = true := hstored.queue_outgoing.trans hqueue
    have hsettled : c.settled id = { c with id := id } := by rw [Entry.settled, if_pos hless]
    rw [if_pos hless, if_pos rfl, hsettled, Entry.updates, if_pos hless]
    dsimp only
    have hsent : ∀ msg, s₁.queue msg none = some [⟨msg, none⟩] := fun msg => if_pos hqueue'
    rw [hvalue, Option.bind_eq_bind, Option.bind_some, hsent]
    exact ⟨s₁, _, _, rfl, hstored, ⟨rfl, rfl, hvalue, rfl, rfl⟩, rfl⟩
  · have hsettled : c.settled id = c.granted id := by
      rw [Entry.settled, if_neg hless, Entry.granted]
    obtain ⟨d, hchanged⟩ := @changed_isSome (Entry.IsPersistent { c with id := id }) c.value value
      fun _ => h.values c hc
    rw [if_neg hless, if_neg fun hne => hne rfl, hsettled]
    simp only [Bool.not_true, Bool.false_and, Bool.false_eq_true, ↓reduceIte, dirty_dirty,
      hchanged, Option.bind_eq_bind, Option.bind_some]
    have hrelay : ∀ entry msg, ((s₁.dirty (false || d)).put entry).relay conn msg = [] := by
      intro entry msg
      have hnot : ¬ ((s₁.dirty (false || d)).put entry).server = true := by
        rw [put_server]
        exact fun hset => Bool.false_ne_true ((hstored.server.trans hserver).symm.trans hset)
      exact if_neg hnot
    have hnone : (c.granted id).updates = [] := by
      have hsame : ¬ (SequenceNumber.mk 0).less (c.granted id).seq_num := by
        show ¬ (SequenceNumber.mk 0).less {}
        decide
      exact if_neg hsame
    have hrewrite := @Stored.rewrite s s₁ { c with id := id }
      { c with id := id, value := some value, seq_num := {} } hstored
      (Option.some_ne_none value) rfl rfl rfl (false || d)
    refine ⟨_, _, _, rfl, hrewrite, ⟨rfl, rfl, hvalue.symm, rfl, rfl⟩, ?_⟩
    rw [hrelay, hnone]
    rfl

/-- Entries with the ids that the server gives them, from n on. -/
def grantedFrom (n : ℕ) (l : List Entry) : List Entry := (l.zipIdx n).map fun p => p.1.granted p.2

def settledFrom (n : ℕ) (l : List Entry) : List Entry := (l.zipIdx n).map fun p => p.1.settled p.2

theorem names_settledFrom (n : ℕ) (l : List Entry) :
    (settledFrom n l).map (·.name) = l.map (·.name) := by
  conv_rhs => rw [← List.zipIdx_map_fst n l, List.map_map]
  rw [settledFrom, List.map_map]
  rfl

theorem names_grantedFrom (n : ℕ) (l : List Entry) :
    (grantedFrom n l).map (·.name) = l.map (·.name) := by
  conv_rhs => rw [← List.zipIdx_map_fst n l, List.map_map]
  rw [grantedFrom, List.map_map]
  rfl

theorem ids_settledFrom (n : ℕ) (l : List Entry) :
    (settledFrom n l).map (·.id) = List.range' n l.length := by
  rw [← List.zipIdx_map_snd n l, settledFrom, List.map_map]
  rfl

theorem processAll_cons {conn : Connection} {msg : Message} {msgs : List Message}
    {effects effects' : Effects} (h : s.ProcessIncoming conn msg = some (s', effects))
    (h' : s'.processAll conn msgs = some (s'', effects')) :
    s.processAll conn (msg :: msgs) = some (s'', effects.append effects') := by
  rw [processAll, h, Option.bind_eq_bind, Option.bind_some]
  dsimp only
  rw [h']
  rfl

theorem process_granted_all {l : List Entry} {n : ℕ} (h : Joining s) (hserver : s.server = false)
    (hqueue : s.queue_outgoing = true) (hl : ∀ c ∈ l, s.find c.name = some c ∧ c.id = 0xffff)
    (hP : Adoptable s (settledFrom n l)) (conn : Connection) : ∃ s' effects,
    s.processAll conn ((grantedFrom n l).map Entry.told) = some (s', effects) ∧
      effects.outgoing = ((settledFrom n l).flatMap Entry.updates).map (fun msg => ⟨msg, none⟩) ∧
      Adopted s s' (settledFrom n l) := by
  induction l generalizing s n with
  | nil => exact ⟨s, {}, rfl, rfl, adopted_nil h⟩
  | cons c l ih =>
    obtain ⟨⟨hfind, hwaits⟩, hl⟩ := List.forall_mem_cons.mp hl
    have hsettled : settledFrom n (c :: l) = c.settled n :: settledFrom (n + 1) l := by
      rw [settledFrom, List.zipIdx_cons, List.map_cons, settledFrom]
    rw [hsettled] at hP ⊢
    have hfree : s.pointer n = none := hP.free _ (.head _)
    have hid : n ≠ 0xffff := hP.given _ (.head _)
    obtain ⟨s₁, effects₁, entry, hprocess, hstored, hlike, hout⟩ := process_granted h hserver hqueue
      (mem_of_find hfind).1 hwaits hfree hid conn
    have hl₁ : ∀ c' ∈ l, s₁.find c'.name = some c' ∧ c'.id = 0xffff := by
      intro c' hc'
      have hnames := (List.nodup_cons.mp hP.names).1
      rw [names_settledFrom] at hnames
      rw [hstored.find, if_neg]
      · exact hl c' hc'
      · rw [hlike.name]
        exact fun heq => hnames (List.mem_map.mpr ⟨c', hc', heq⟩)
    obtain ⟨s', effects', hall, houtgoing, hadopted⟩ := ih hstored.joining
      (hstored.server.trans hserver) (hstored.queue_outgoing.trans hqueue) hl₁
      (hstored.rest hlike hP)
    refine ⟨s', effects₁.append effects', processAll_cons hprocess hall, ?_,
      hstored.adopted hlike (names_ne hP) hadopted⟩
    dsimp only [Effects.append]
    rw [hout, houtgoing, List.flatMap_cons, List.map_append]

end Adopting

end Storage

end SparxRobot.NetworkTables
