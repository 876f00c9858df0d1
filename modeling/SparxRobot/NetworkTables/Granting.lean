import SparxRobot.NetworkTables.Joining
import SparxRobot.NetworkTables.Server
import SparxRobot.NetworkTables.Update

/-! What a server does with the entries that only a client has. -/
namespace SparxRobot.NetworkTables

namespace Storage

section Server

variable {s s' : Storage} {c e : Entry} {P : List Entry}

/-- What the server makes of an entry of a client. -/
def created (s : Storage) (c : Entry) : Entry :=
  { address := s.allocated, name := c.name, value := c.value, flags := c.flags, id := s.idmap.length }

/-- The server with it, under the next id. -/
def create (s : Storage) (c : Entry) : Storage :=
  ({ s with idmap := s.idmap ++ [some s.allocated] }.dirty c.IsPersistent).put (s.created c)

theorem find_create (h : Sound s) (hnone : s.find c.name = none) (hvalue : c.value ≠ none)
    (name : Bytes) :
    (s.create c).find name = if name = c.name then some (s.created c) else s.find name := by
  have htidy := h.tidy
  refine @Tidy.find_put ({ s with idmap := s.idmap ++ [some s.allocated] }.dirty c.IsPersistent)
    (s.created c) ⟨htidy.names, htidy.addresses, htidy.allocated, htidy.values⟩ ?_ hvalue name
  have hat : s.entryAt c.name = { address := s.allocated, name := c.name } := by
    rw [entryAt, hnone, Option.getD_none]
  exact (congrArg Entry.address hat).symm

theorem process_request_eq (hserver : s.server = true) (hnone : s.find c.name = none)
    (hvalue : c.value ≠ none) (hwaits : c.id = 0xffff) (conn : Connection) : ∃ notifications,
    s.ProcessIncoming conn c.told = some (s.create c, {
      notifications := notifications
      outgoing := (s.create c).queueIfSet (c.granted s.idmap.length).told none }) := by
  obtain ⟨value, hvalue⟩ := Option.ne_none_iff_exists'.mp hvalue
  have hgetD : c.value.getD .unassigned = value := by rw [hvalue, Option.getD_some]
  have hat : s.entryAt c.name = { address := s.allocated, name := c.name } := by
    rw [entryAt, hnone, Option.getD_none]
  unfold ProcessIncoming Entry.told
  dsimp only
  rw [if_pos hserver, assignOnServer, if_pos hwaits, hnone, if_neg (by simp), hgetD, hat, create,
    created, hvalue, Entry.granted, hvalue, Option.getD_some]
  exact ⟨_, rfl⟩

/-- The server gives an entry that it does not have the next id. -/
theorem process_request (h : Serves s) (hqueue : s.queue_outgoing = true)
    (hnone : s.find c.name = none) (hvalue : c.value ≠ none) (hwaits : c.id = 0xffff)
    (conn : Connection) : ∃ effects,
    s.ProcessIncoming conn c.told = some (s.create c, effects) ∧ Step s (s.create c) ∧
      (s.create c).idmap.length = s.idmap.length + 1 ∧
      effects.outgoing = [⟨(c.granted s.idmap.length).told, none⟩] := by
  obtain ⟨notifications, hprocess⟩ := process_request_eq h.server hnone hvalue hwaits conn
  obtain ⟨s', effects, hsame, hchange⟩ := change_processIncoming h conn c.told
  obtain ⟨rfl, -⟩ := Prod.mk.inj (Option.some.inj (hsame.symm.trans hprocess))
  have hset : (s.create c).queue_outgoing = true := put_queue_outgoing.trans hqueue
  refine ⟨_, hprocess, hchange.step h, ?_, if_pos hset⟩
  refine (congrArg List.length put_idmap).trans ?_
  simp [dirty]

/-- A client may ask for ids of entries that the server does not have. -/
structure Requests (s : Storage) (l : List Entry) : Prop where
  names : (l.map (·.name)).Nodup
  values : ∀ c ∈ l, c.value ≠ none
  waits : ∀ c ∈ l, c.id = 0xffff
  new : ∀ c ∈ l, s.find c.name = none
  room : s.idmap.length + l.length ≤ 0xffff

theorem process_requests {l : List Entry} (h : Serves s) (hqueue : s.queue_outgoing = true)
    (hl : Requests s l) (conn : Connection) : ∃ s' effects,
    s.processAll conn (l.map Entry.told) = some (s', effects) ∧ Step s s' ∧
      Shows s s' (grantedFrom s.idmap.length l) ∧ s'.queue_outgoing = true ∧
      s'.idmap.length = s.idmap.length + l.length ∧
      effects.outgoing = (grantedFrom s.idmap.length l).map fun e => ⟨e.told, none⟩ := by
  induction l generalizing s with
  | nil => exact ⟨s, {}, rfl, .refl h.toSound, shows_nil, hqueue, rfl, rfl⟩
  | cons c l ih =>
    obtain ⟨hnames, hnodup⟩ := List.nodup_cons.mp hl.names
    obtain ⟨hvalue, hvalues⟩ := List.forall_mem_cons.mp hl.values
    obtain ⟨hwaits, hwaiting⟩ := List.forall_mem_cons.mp hl.waits
    obtain ⟨hnone, hnew⟩ := List.forall_mem_cons.mp hl.new
    have hroom := hl.room
    rw [List.length_cons] at hroom
    obtain ⟨effects₁, hprocess, hstep, hlength, hout⟩ :=
      process_request h hqueue hnone hvalue hwaits conn
    have hfind := find_create h.toSound hnone hvalue
    have hl₁ : Requests (s.create c) l := by
      refine ⟨hnodup, hvalues, hwaiting, fun c' hc' => ?_, by omega⟩
      rw [hfind, if_neg fun heq => hnames (List.mem_map.mpr ⟨c', hc', heq⟩)]
      exact hnew c' hc'
    obtain ⟨s', effects', hall, hstep', hshows, hqueue', hlength', houtgoing⟩ :=
      ih (h.step hstep (by omega)) (put_queue_outgoing.trans hqueue) hl₁
    have hgranted : grantedFrom s.idmap.length (c :: l) =
        c.granted s.idmap.length :: grantedFrom (s.create c).idmap.length l := by
      rw [grantedFrom, List.zipIdx_cons, List.map_cons, grantedFrom, hlength]
    have hlike : (s.created c).Like (c.granted s.idmap.length) := ⟨rfl, rfl, rfl, rfl, rfl⟩
    rw [hgranted]
    refine ⟨s', effects₁.append effects', processAll_cons hprocess hall, hstep.trans hstep',
      hshows.cons hfind hlike fun e he heq => hnames ?_, hqueue', ?_, ?_⟩
    · rw [← names_grantedFrom (s.create c).idmap.length l]
      exact List.mem_map.mpr ⟨e, he, heq⟩
    · rw [hlength', List.length_cons]
      omega
    · dsimp only [Effects.append]
      rw [hout, houtgoing]
      rfl

theorem Kept.trans {s'' : Storage} (h : Kept s s') (h' : Kept s' s'') : Kept s s'' :=
  ⟨h'.sound, h'.idmap.trans h.idmap, h'.server.trans h.server,
    h'.queue_outgoing.trans h.queue_outgoing, fun name => (h'.ids name).trans (h.ids name)⟩

/-- The server takes what the clients' numbers make look later than what it has created. -/
theorem process_settled (h : Sound s) (hvalue : c.value ≠ none)
    (hseq : c.seq_num = {} ∨ (SequenceNumber.mk 0).less c.seq_num) (hfind : s.find c.name = some e)
    (hlike : e.Like (c.granted c.id)) (conn : Connection) : ∃ s' effects entry,
    s.processAll conn c.updates = some (s', effects) ∧ Kept s s' ∧
      (∀ name, s'.find name = if name = entry.name then some entry else s.find name) ∧
      entry.Like c ∧ ∀ o ∈ effects.outgoing, o.except = some conn.uid := by
  obtain ⟨he, hname⟩ := mem_of_find hfind
  obtain ⟨value, hvalue⟩ := Option.ne_none_iff_exists'.mp hvalue
  have hid : e.id = c.id := hlike.id
  have hnumber : e.seq_num = {} := hlike.seq_num
  unfold Entry.updates
  by_cases hless : (SequenceNumber.mk 0).less c.seq_num
  · rw [if_pos hless, hvalue, Option.getD_some, ← hid]
    obtain ⟨s', effects, hprocess, hcases⟩ := processUpdate_cases h he conn c.seq_num.value value
    obtain ⟨hle, -⟩ | ⟨-, rfl, hout⟩ := hcases
    · rw [hnumber] at hle
      exact absurd hle (SequenceNumber.not_lessEqual_of_less hless)
    · have hlike' : ({ e with value := value, seq_num := ⟨c.seq_num.value⟩ } : Entry).Like c :=
        ⟨hname, hid, hvalue.symm, hlike.flags, rfl⟩
      refine ⟨_, _, _, processAll_cons hprocess rfl, kept_revise h he _ _,
        fun name => find_revise h he _ _, hlike', fun o ho => ?_⟩
      dsimp only [Effects.append] at ho
      rw [hout, List.append_nil] at ho
      unfold relay queueIfSet at ho
      split at ho
      · split at ho
        · rw [List.mem_singleton.mp ho]
        · exact absurd ho List.not_mem_nil
      · exact absurd ho List.not_mem_nil
  · rw [if_neg hless]
    have hzero := hseq.resolve_right hless
    refine ⟨s, {}, e, rfl, .refl h, fun name => ?_, ⟨hname, hid, hlike.value, hlike.flags, ?_⟩,
      fun o ho => absurd ho List.not_mem_nil⟩
    · split
      · next heq => rw [heq, hname, hfind]
      · rfl
    · rw [hnumber, hzero]

theorem processAll_append {conn : Connection} {msgs msgs' : List Message} {s'' : Storage}
    {effects effects' : Effects} (h : s.processAll conn msgs = some (s', effects))
    (h' : s'.processAll conn msgs' = some (s'', effects')) : ∃ effects'',
    s.processAll conn (msgs ++ msgs') = some (s'', effects'') ∧
      effects''.outgoing = effects.outgoing ++ effects'.outgoing := by
  induction msgs generalizing s effects with
  | nil =>
    obtain ⟨rfl, rfl⟩ := Prod.mk.inj (Option.some.inj h)
    exact ⟨effects', h', rfl⟩
  | cons msg msgs ih =>
    rw [processAll, Option.bind_eq_bind, Option.bind_eq_some_iff] at h
    obtain ⟨⟨s₁, effects₁⟩, hprocess, h⟩ := h
    dsimp only at h
    rw [Option.bind_eq_some_iff] at h
    obtain ⟨⟨s₂, effects₂⟩, hrest, h⟩ := h
    obtain ⟨rfl, rfl⟩ := Prod.mk.inj (Option.some.inj h)
    obtain ⟨effects₃, hall, hout⟩ := ih hrest
    refine ⟨_, processAll_cons hprocess hall, ?_⟩
    dsimp only [Effects.append]
    rw [hout, List.append_assoc]

theorem process_updates (h : Sound s) (hnames : (P.map (·.name)).Nodup)
    (hvalues : ∀ c ∈ P, c.value ≠ none)
    (hseq : ∀ c ∈ P, c.seq_num = {} ∨ (SequenceNumber.mk 0).less c.seq_num)
    (hP : ∀ c ∈ P, ∃ e, s.find c.name = some e ∧ e.Like (c.granted c.id)) (conn : Connection) :
    ∃ s' effects, s.processAll conn (P.flatMap Entry.updates) = some (s', effects) ∧ Kept s s' ∧
      Shows s s' P ∧ ∀ o ∈ effects.outgoing, o.except = some conn.uid := by
  induction P generalizing s with
  | nil => exact ⟨s, {}, rfl, .refl h, shows_nil, fun o ho => absurd ho List.not_mem_nil⟩
  | cons c P ih =>
    obtain ⟨hnew, hnodup⟩ := List.nodup_cons.mp hnames
    obtain ⟨hvalue, hvalues⟩ := List.forall_mem_cons.mp hvalues
    obtain ⟨hseq, hseqs⟩ := List.forall_mem_cons.mp hseq
    obtain ⟨⟨e, hfind, hlike⟩, hP⟩ := List.forall_mem_cons.mp hP
    obtain ⟨s₁, effects₁, entry, hprocess, hkept, hfind₁, hentry, hexcept⟩ :=
      process_settled h hvalue hseq hfind hlike conn
    have hne : ∀ c' ∈ P, c'.name ≠ c.name :=
      fun c' hc' heq => hnew (List.mem_map.mpr ⟨c', hc', heq⟩)
    have hP₁ : ∀ c' ∈ P, ∃ e, s₁.find c'.name = some e ∧ e.Like (c'.granted c'.id) := by
      intro c' hc'
      rw [hfind₁, hentry.name, if_neg (hne c' hc')]
      exact hP c' hc'
    obtain ⟨s', effects', hall, hkept', hshows, hexcept'⟩ :=
      ih hkept.sound hnodup hvalues hseqs hP₁
    obtain ⟨effects, hboth, hout⟩ := processAll_append hprocess hall
    refine ⟨s', effects, by rw [List.flatMap_cons, hboth], hkept.trans hkept',
      hshows.cons hfind₁ hentry hne, fun o ho => ?_⟩
    rw [hout] at ho
    exact (List.mem_append.mp ho).elim (hexcept o) (hexcept' o)

end Server

end Storage

end SparxRobot.NetworkTables
