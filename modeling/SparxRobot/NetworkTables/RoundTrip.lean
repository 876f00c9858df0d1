import SparxRobot.NetworkTables.Message

/-! Batches from the write thread of one side to the read thread of the other. -/
namespace SparxRobot.NetworkTables
open Codec

namespace Message
open WireDecoder

/-- A message as it arrives. None has no bytes. -/
def received (proto_rev : ℕ) : Message → Option Message
  | clientHello _ self_id => some (clientHello proto_rev (if proto_rev < 0x0300 then [] else self_id))
  | protoUnsup _ => some (protoUnsup proto_rev)
  | serverHello flags self_id =>
      if proto_rev < 0x0300 then none else some (serverHello (flags % 256) self_id)
  | clientHelloDone => if proto_rev < 0x0300 then none else some clientHelloDone
  | entryAssign name id seq_num value flags =>
      some (entryAssign (cut proto_rev name) (id % 65536) (seq_num % 65536)
        (value.received proto_rev) (if proto_rev < 0x0300 then 0 else flags % 256))
  | entryUpdate id seq_num value =>
      some (entryUpdate (id % 65536) (seq_num % 65536) (value.received proto_rev))
  | flagsUpdate id flags =>
      if proto_rev < 0x0300 then none else some (flagsUpdate (id % 65536) (flags % 256))
  | entryDelete id => if proto_rev < 0x0300 then none else some (entryDelete (id % 65536))
  | clearEntries => if proto_rev < 0x0300 then none else some clearEntries
  | executeRpc id uid params =>
      if proto_rev < 0x0300 then none else some (executeRpc (id % 65536) (uid % 65536) params)
  | rpcResponse id uid results =>
      if proto_rev < 0x0300 then none else some (rpcResponse (id % 65536) (uid % 65536) results)
  | m => some m

/-- The messages the revision can carry to a reader whose entries have these types. -/
def Supported (proto_rev : ℕ) (get_entry_type : ℕ → NT_Type) : Message → Prop
  | clientHello _ s | serverHello _ s | executeRpc _ _ s | rpcResponse _ _ s => Readable proto_rev s
  | entryAssign name _ _ value _ => Readable proto_rev name ∧ value.Supported proto_rev
  | entryUpdate id _ value =>
      value.Supported proto_rev ∧ (proto_rev < 0x0300 → get_entry_type (id % 65536) = value.type)
  | _ => True

/-- The bytes of a message. -/
def data (proto_rev : ℕ) : Message → Bytes
  | keepAlive => bytes 1 0x00
  | clientHello _ self_id =>
      bytes 1 0x01 ++ (bytes 2 proto_rev ++
        if proto_rev < 0x0300 then [] else stringBytes proto_rev self_id)
  | protoUnsup _ => bytes 1 0x02 ++ bytes 2 proto_rev
  | serverHelloDone => bytes 1 0x03
  | serverHello flags self_id =>
      if proto_rev < 0x0300 then []
      else bytes 1 0x04 ++ (bytes 1 flags ++ stringBytes proto_rev self_id)
  | clientHelloDone => if proto_rev < 0x0300 then [] else bytes 1 0x05
  | entryAssign name id seq_num value flags =>
      bytes 1 0x10 ++ (stringBytes proto_rev name ++ (typeBytes proto_rev value.type ++
        (bytes 2 id ++ (bytes 2 seq_num ++ ((if proto_rev < 0x0300 then [] else bytes 1 flags) ++
          valueBytes proto_rev value)))))
  | entryUpdate id seq_num value =>
      bytes 1 0x11 ++ (bytes 2 id ++ (bytes 2 seq_num ++
        ((if proto_rev < 0x0300 then [] else typeBytes proto_rev value.type) ++
          valueBytes proto_rev value)))
  | flagsUpdate id flags =>
      if proto_rev < 0x0300 then [] else bytes 1 0x12 ++ (bytes 2 id ++ bytes 1 flags)
  | entryDelete id => if proto_rev < 0x0300 then [] else bytes 1 0x13 ++ bytes 2 id
  | clearEntries => if proto_rev < 0x0300 then [] else bytes 1 0x14 ++ bytes 4 kClearAllMagic
  | executeRpc id uid params =>
      if proto_rev < 0x0300 then []
      else bytes 1 0x20 ++ (bytes 2 id ++ (bytes 2 uid ++ stringBytes proto_rev params))
  | rpcResponse id uid results =>
      if proto_rev < 0x0300 then []
      else bytes 1 0x21 ++ (bytes 2 id ++ (bytes 2 uid ++ stringBytes proto_rev results))

section Writing

variable (e : WireEncoder)

@[simp] theorem append_data (w : Bytes) : (e.append w).data = e.data ++ w := rfl
@[simp] theorem append_proto_rev (w : Bytes) : (e.append w).proto_rev = e.proto_rev := rfl

@[simp] theorem writeString_data (s : Bytes) :
    (e.WriteString s).data = e.data ++ stringBytes e.proto_rev s := (writes_string e s).data

@[simp] theorem writeString_proto_rev (s : Bytes) :
    (e.WriteString s).proto_rev = e.proto_rev := (writes_string e s).proto_rev

@[simp] theorem writeType_data (type : NT_Type) :
    (e.WriteType type).data = e.data ++ typeBytes e.proto_rev type := (writes_type e type).data

@[simp] theorem writeType_proto_rev (type : NT_Type) :
    (e.WriteType type).proto_rev = e.proto_rev := (writes_type e type).proto_rev

@[simp] theorem writeValue_data (v : Value) :
    (e.WriteValue v).data = e.data ++ valueBytes e.proto_rev v := (writes_value e v).data

@[simp] theorem writeValue_proto_rev (v : Value) :
    (e.WriteValue v).proto_rev = e.proto_rev := (writes_value e v).proto_rev

theorem writes_message (m : Message) : Writes e (m.Write e) (m.data e.proto_rev) := by
  by_cases hrev : e.proto_rev < 0x0300
  · have hold : ¬ 0x0300 ≤ e.proto_rev := not_le.mpr hrev
    constructor <;> cases m <;>
      simp [Write, data, hrev, hold, WireEncoder.Write8, WireEncoder.Write16]
  · have hnew : 0x0300 ≤ e.proto_rev := not_lt.mp hrev
    constructor <;> cases m <;>
      simp [Write, data, hrev, hnew, WireEncoder.Write8, WireEncoder.Write16, WireEncoder.Write32]

end Writing

section Reading

variable {proto_rev : ℕ} {get_entry_type : ℕ → NT_Type} {m m' : Message}

theorem takes_read_of_readData {msg_type : ℕ} {w : Bytes} (hlt : msg_type < 256)
    (h : Takes (readData proto_rev get_entry_type msg_type) w m) :
    Takes (Read proto_rev get_entry_type) (bytes 1 msg_type ++ w) m := (takes_read8 hlt).bind h

theorem takes_type {v : Value} (h : v.Supported proto_rev) :
    Takes ReadType (typeBytes proto_rev v.type) v.type := by
  cases v with
  | unassigned => exact h.elim
  | raw s | rpc s =>
    have hrev : ¬ proto_rev < 0x0300 := not_lt.mpr h.1
    rw [Value.type, typeBytes, if_neg hrev]
    exact takes_readType (by decide) rfl
  | _ => exact takes_readType (by decide) rfl

/-- The messages of an older connection. -/
theorem takes_message_old (hold : proto_rev < 0x0300) (h : m.Supported proto_rev get_entry_type)
    (hm : m.received proto_rev = some m') :
    Takes (Read proto_rev get_entry_type) (m.data proto_rev) m' := by
  have hnew : ¬ 0x0300 ≤ proto_rev := not_le.mpr hold
  have h16 := takes_read16 proto_rev
  rw [Nat.mod_eq_of_lt (by omega)] at h16
  cases m with
  | keepAlive | serverHelloDone =>
    obtain rfl := Option.some.inj hm
    exact takes_read_of_readData (by decide) takes_pure
  | clientHello _ self_id =>
    simp only [received, hold, ↓reduceIte] at hm
    obtain rfl := Option.some.inj hm
    simp only [data, hold, ↓reduceIte]
    refine takes_read_of_readData (by decide) (h16.bind ?_)
    simp only [hnew, ↓reduceIte]
    exact takes_pure.bind takes_pure
  | protoUnsup _ =>
    obtain rfl := Option.some.inj hm
    exact takes_read_of_readData (by decide) (h16.bind_pure rfl)
  | entryAssign name id seq_num value flags =>
    simp only [received, hold, ↓reduceIte] at hm
    obtain rfl := Option.some.inj hm
    simp only [data, hold, ↓reduceIte]
    refine takes_read_of_readData (by decide) ((takes_readString h.1).bind
      ((takes_type h.2).bind ((takes_read16 id).bind ((takes_read16 seq_num).bind ?_))))
    simp only [hnew, ↓reduceIte]
    exact takes_pure.bind ((takes_readValue h.2).bind_pure rfl)
  | entryUpdate id seq_num value =>
    obtain rfl := Option.some.inj hm
    simp only [data, hold, ↓reduceIte]
    refine takes_read_of_readData (by decide)
      ((takes_read16 id).bind ((takes_read16 seq_num).bind ?_))
    simp only [hnew, ↓reduceIte, h.2 hold]
    exact takes_pure.bind ((takes_readValue h.1).bind_pure rfl)
  | _ => simp [received, hold] at hm

/-- The messages of a connection of version 3.0. -/
theorem takes_message_new (hnew : 0x0300 ≤ proto_rev) (hrev : proto_rev < 0x10000)
    (h : m.Supported proto_rev get_entry_type) (hm : m.received proto_rev = some m') :
    Takes (Read proto_rev get_entry_type) (m.data proto_rev) m' := by
  have hold : ¬ proto_rev < 0x0300 := not_lt.mpr hnew
  have hcut : ∀ s, cut proto_rev s = s := fun s => if_neg hold
  have h8 : ∀ n, Takes Read8 (bytes 1 n) (n % 256) := fun n => takes_number 1 n
  have h16 := takes_read16 proto_rev
  rw [Nat.mod_eq_of_lt (by omega)] at h16
  simp only [received, hold, ↓reduceIte] at hm
  cases m with
  | keepAlive | serverHelloDone | clientHelloDone =>
    obtain rfl := Option.some.inj hm
    simp only [data, hold, ↓reduceIte]
    refine takes_read_of_readData (w := []) (by decide) ?_
    simp only [readData, since3, hold, ↓reduceIte]
    exact takes_pure
  | clientHello _ self_id =>
    obtain rfl := Option.some.inj hm
    have hstring := takes_readString h
    rw [hcut] at hstring
    simp only [data, hold, ↓reduceIte]
    refine takes_read_of_readData (by decide) (h16.bind ?_)
    simp only [hnew, ↓reduceIte]
    exact hstring.bind_pure rfl
  | protoUnsup _ =>
    obtain rfl := Option.some.inj hm
    exact takes_read_of_readData (by decide) (h16.bind_pure rfl)
  | serverHello flags self_id =>
    obtain rfl := Option.some.inj hm
    have hstring := takes_readString h
    rw [hcut] at hstring
    simp only [data, hold, ↓reduceIte]
    refine takes_read_of_readData (by decide) ?_
    simp only [readData, since3, hold, ↓reduceIte]
    exact (h8 flags).bind (hstring.bind_pure rfl)
  | entryAssign name id seq_num value flags =>
    obtain rfl := Option.some.inj hm
    simp only [data, hold, ↓reduceIte]
    refine takes_read_of_readData (by decide) ((takes_readString h.1).bind
      ((takes_type h.2).bind ((takes_read16 id).bind ((takes_read16 seq_num).bind ?_))))
    simp only [hnew, ↓reduceIte]
    exact (h8 flags).bind ((takes_readValue h.2).bind_pure rfl)
  | entryUpdate id seq_num value =>
    obtain rfl := Option.some.inj hm
    simp only [data, hold, ↓reduceIte]
    refine takes_read_of_readData (by decide)
      ((takes_read16 id).bind ((takes_read16 seq_num).bind ?_))
    simp only [hnew, ↓reduceIte]
    exact (takes_type h.1).bind ((takes_readValue h.1).bind_pure rfl)
  | flagsUpdate id flags =>
    obtain rfl := Option.some.inj hm
    simp only [data, hold, ↓reduceIte]
    refine takes_read_of_readData (by decide) ?_
    simp only [readData, since3, hold, ↓reduceIte]
    exact (takes_read16 id).bind ((h8 flags).bind_pure rfl)
  | entryDelete id =>
    obtain rfl := Option.some.inj hm
    simp only [data, hold, ↓reduceIte]
    refine takes_read_of_readData (by decide) ?_
    simp only [readData, since3, hold, ↓reduceIte]
    exact (takes_read16 id).bind_pure rfl
  | clearEntries =>
    obtain rfl := Option.some.inj hm
    simp only [data, hold, ↓reduceIte]
    refine takes_read_of_readData (by decide) ?_
    simp only [readData, since3, hold, ↓reduceIte]
    rw [← List.append_nil (bytes 4 kClearAllMagic)]
    exact (takes_read32 kClearAllMagic).bind takes_pure
  | executeRpc id uid params | rpcResponse id uid params =>
    obtain rfl := Option.some.inj hm
    simp only [data, hold, ↓reduceIte]
    refine takes_read_of_readData (by decide) ?_
    simp only [readData, since3, hold, ↓reduceIte]
    refine (takes_read16 id).bind ((takes_read16 uid).bind ?_)
    rw [stringBytes, if_neg hold]
    exact (takes_readUleb128 (h.resolve_left hold)).bind ((takes_read rfl).bind_pure rfl)

theorem takes_message (hrev : proto_rev < 0x10000) (h : m.Supported proto_rev get_entry_type)
    (hm : m.received proto_rev = some m') :
    Takes (Read proto_rev get_entry_type) (m.data proto_rev) m' := by
  rcases Nat.lt_or_ge proto_rev 0x0300 with hold | hnew
  · exact takes_message_old hold h hm
  · exact takes_message_new hnew hrev h hm

end Reading

/-- The messages that say something of the connection they are on. -/
def StatesRevision : Message → Prop
  | clientHello _ _ | protoUnsup _ => True
  | _ => False

/-- Messages that every newer connection carries, and as they are unless they state a revision. -/
def Carried (proto_rev : ℕ) (get_entry_type : ℕ → NT_Type) (m : Message) : Prop :=
  ∀ later, Newer proto_rev later →
    m.Supported later get_entry_type ∧ (¬ m.StatesRevision → m.received later = some m)

section Accepted

variable {proto_rev : ℕ} {get_entry_type : ℕ → NT_Type}

theorem carried_of_received {m : Message} (h : ∀ later, Newer proto_rev later →
    m.Supported later get_entry_type ∧ m.received later = some m) :
    m.Carried proto_rev get_entry_type :=
  fun later hlater => ⟨(h later hlater).1, fun _ => (h later hlater).2⟩

/-- What only version 3.0 has is sent on to newer connections alone. -/
theorem returns_since3 {error : String} {r : WireDecoder Message}
    (h : ¬ proto_rev < 0x0300 → Returns r fun m => ∀ later, ¬ later < 0x0300 →
      m.Supported later get_entry_type ∧ m.received later = some m) :
    Returns (since3 proto_rev error r) (Carried proto_rev get_entry_type) := by
  unfold since3
  split
  · exact returns_fail _
  · next hnew =>
    refine (h hnew).mono fun m hm => carried_of_received fun later hlater => ?_
    exact hm later fun hlt => hnew (hlater hlt)

/-- The flags of an assignment are no part of it in an older connection. -/
theorem returns_flags : Returns (if 0x0300 ≤ proto_rev then Read8 else pure 0) fun flags =>
    ∀ later, Newer proto_rev later → (if later < 0x0300 then 0 else flags % 256) = flags := by
  split
  · next hnew =>
    have h8 : Returns Read8 fun n => n < 256 := returns_number
    refine h8.mono fun flags hflags later hlater => ?_
    rw [if_neg fun hold => absurd (hlater hold) (not_lt.mpr hnew), Nat.mod_eq_of_lt hflags]
  · refine returns_pure fun later _ => ?_
    split <;> rfl

theorem returns_message :
    Returns (Read proto_rev get_entry_type) (Carried proto_rev get_entry_type) := by
  have h8 : Returns Read8 fun n => n < 256 := returns_number
  have h16 : Returns Read16 fun n => n < 65536 := returns_number
  have hmod : ∀ {n k : ℕ}, n < k → n % k = n := Nat.mod_eq_of_lt
  refine returns_any.bind fun msg_type _ => ?_
  unfold readData
  split
  · exact returns_pure (carried_of_received fun _ _ => ⟨trivial, rfl⟩)
  · refine h16.bind fun rev _ => Returns.bind (P := CarriedString proto_rev) ?_
      fun str hstr => returns_pure fun later hlater =>
      ⟨(hstr later hlater).1, fun hnot => absurd trivial hnot⟩
    split
    · exact returns_readString
    · exact returns_pure fun later _ => ⟨.inr (by decide), by unfold cut; split <;> rfl⟩
  · exact h16.bind fun rev _ => returns_pure fun _ _ => ⟨trivial, fun hnot => absurd trivial hnot⟩
  · exact returns_pure (carried_of_received fun _ _ => ⟨trivial, rfl⟩)
  · refine returns_since3 fun hnew => h8.bind fun flags hflags => returns_readString.bind
      fun str hstr => returns_pure fun later hlater => ?_
    refine ⟨(hstr later fun hlt => absurd hlt hlater).1, ?_⟩
    rw [received, if_neg hlater, hmod hflags]
  · refine returns_since3 fun hnew => returns_pure fun later hlater => ⟨trivial, ?_⟩
    rw [received, if_neg hlater]
  · refine returns_readString.bind fun name hname => returns_any.bind fun type _ => h16.bind
      fun id hid => h16.bind fun seq_num hseq => returns_flags.bind fun flags hflags =>
      (returns_readValue type).bind fun value hvalue => returns_pure ?_
    refine carried_of_received fun later hlater => ?_
    obtain ⟨hreadable, hcut⟩ := hname later hlater
    obtain ⟨hsupported, hreceived⟩ := hvalue.2 later hlater
    refine ⟨⟨hreadable, hsupported⟩, ?_⟩
    rw [received, hcut, hmod hid, hmod hseq, hreceived, hflags later hlater]
  · refine h16.bind fun id hid => h16.bind fun seq_num hseq =>
      Returns.bind (P := fun type => proto_rev < 0x0300 → get_entry_type id = type) ?_
      fun type htype => (returns_readValue type).bind fun value hvalue => returns_pure ?_
    · split
      · next hnew => exact returns_any.mono fun type _ hold => absurd hnew (not_le.mpr hold)
      · exact returns_pure fun _ => rfl
    · refine carried_of_received fun later hlater => ?_
      obtain ⟨hsupported, hreceived⟩ := hvalue.2 later hlater
      refine ⟨⟨hsupported, fun hold => ?_⟩, ?_⟩
      · rw [hmod hid, hvalue.1, htype (hlater hold)]
      · rw [received, hmod hid, hmod hseq, hreceived]
  · refine returns_since3 fun hnew => h16.bind fun id hid => h8.bind fun flags hflags =>
      returns_pure fun later hlater => ⟨trivial, ?_⟩
    rw [received, if_neg hlater, hmod hid, hmod hflags]
  · refine returns_since3 fun hnew => h16.bind fun id hid => returns_pure fun later hlater =>
      ⟨trivial, ?_⟩
    rw [received, if_neg hlater, hmod hid]
  · refine returns_since3 fun hnew => returns_any.bind fun magic _ => ?_
    split
    · exact returns_fail _
    · refine returns_pure fun later hlater => ⟨trivial, ?_⟩
      rw [received, if_neg hlater]
  · refine returns_since3 fun hnew => h16.bind fun id hid => h16.bind fun uid huid =>
      (returns_readUleb128 (by omega)).bind fun size hsize => (returns_take _).bind
      fun params hparams => returns_pure fun later hlater => ⟨.inr (hparams ▸ hsize), ?_⟩
    rw [received, if_neg hlater, hmod hid, hmod huid]
  · refine returns_since3 fun hnew => h16.bind fun id hid => h16.bind fun uid huid =>
      (returns_readUleb128 (by omega)).bind fun size hsize => (returns_take _).bind
      fun results hresults => returns_pure fun later hlater => ⟨.inr (hresults ▸ hsize), ?_⟩
    rw [received, if_neg hlater, hmod hid, hmod huid]
  · exact returns_fail _

end Accepted

end Message

section Batch
open Message

variable {proto_rev : ℕ} {get_entry_type : ℕ → NT_Type} {msgs : List (Option Message)}

/-- The messages of a batch as they arrive. -/
def arriving (proto_rev : ℕ) (msgs : List (Option Message)) : List Message :=
  msgs.filterMap fun msg => msg.bind (received proto_rev)

/-- The reader gets the messages of the batch, in order, and is at its end. -/
def Delivered (proto_rev : ℕ) (get_entry_type : ℕ → NT_Type) (msgs : List (Option Message)) :
    Prop :=
  Takes (many (Message.Read proto_rev get_entry_type) (arriving proto_rev msgs).length)
    (WriteThread proto_rev msgs) (arriving proto_rev msgs)

theorem writes_batch (e : WireEncoder) (msgs : List (Option Message)) :
    Writes e (msgs.foldl (fun e msg => match msg with
      | some msg => msg.Write e
      | none => e) e) (msgs.flatMap fun msg => msg.elim [] (data e.proto_rev)) := by
  have hnil : ∀ e : WireEncoder, Writes e e [] := fun e => ⟨(List.append_nil _).symm, rfl⟩
  refine (hnil e).foldl (fun e' msg hrev => ?_) msgs
  cases msg with
  | none => exact hnil e'
  | some m => exact hrev ▸ writes_message e' m

theorem writeThread_eq (proto_rev : ℕ) (msgs : List (Option Message)) :
    WriteThread proto_rev msgs = msgs.flatMap fun msg => msg.elim [] (data proto_rev) :=
  (writes_batch _ msgs).data

/-- A message that does not arrive has no bytes. -/
theorem data_of_received_none {m : Message} (h : m.received proto_rev = none) :
    m.data proto_rev = [] := by
  by_cases hold : proto_rev < 0x0300
  · cases m <;> simp_all [received, data]
  · cases m <;> simp_all [received]

theorem supported_of_received_none {m : Message} (h : m.received proto_rev = none) :
    m.Supported proto_rev get_entry_type := by
  by_cases hold : proto_rev < 0x0300
  · cases m with
    | entryAssign | entryUpdate => nomatch h
    | clientHello | serverHello | executeRpc | rpcResponse => exact .inl hold
    | _ => trivial
  · cases m <;> simp_all [received]

theorem delivered_of_supported (hrev : proto_rev < 0x10000)
    (h : ∀ m, some m ∈ msgs → m.Supported proto_rev get_entry_type) :
    Delivered proto_rev get_entry_type msgs := by
  unfold Delivered
  rw [writeThread_eq]
  induction msgs with
  | nil => exact takes_pure
  | cons msg msgs ih =>
    have hrest := ih fun m hm => h m (.tail _ hm)
    cases hmsg : msg.bind (received proto_rev) with
    | none =>
      have hdata : msg.elim [] (data proto_rev) = [] := by
        cases msg with
        | none => rfl
        | some m => exact data_of_received_none hmsg
      have harriving : arriving proto_rev (msg :: msgs) = arriving proto_rev msgs := by
        simp only [arriving, List.filterMap_cons, hmsg]
      rw [harriving, List.flatMap_cons, hdata, List.nil_append]
      exact hrest
    | some m' =>
      obtain ⟨m, rfl, hm⟩ := Option.bind_eq_some_iff.mp hmsg
      have harriving : arriving proto_rev (some m :: msgs) = m' :: arriving proto_rev msgs := by
        simp only [arriving, List.filterMap_cons, hmsg]
      rw [harriving, List.flatMap_cons]
      exact (takes_message hrev (h m (.head _)) hm).bind (hrest.bind_pure rfl)

theorem readable_of_cut {str : Bytes} (h : Readable proto_rev (cut proto_rev str)) :
    Readable proto_rev str := by
  by_cases hold : proto_rev < 0x0300
  · exact .inl hold
  · rwa [cut, if_neg hold] at h

theorem value_supported_of_received {v : Value}
    (h : (v.received proto_rev).Supported proto_rev) : v.Supported proto_rev := by
  cases v with
  | string s => exact readable_of_cut h
  | raw s | rpc s => exact ⟨h.1, readable_of_cut h.2⟩
  | stringArray v =>
    refine fun s hs => readable_of_cut (h _ ?_)
    rw [← List.map_take, List.take_take, min_self]
    exact List.mem_map_of_mem hs
  | _ => exact h

/-- Whether a message is supported is seen from what arrives of it. -/
theorem supported_of_received {m m' : Message} (hm : m.received proto_rev = some m')
    (h : m'.Supported proto_rev get_entry_type) : m.Supported proto_rev get_entry_type := by
  cases m with
  | entryAssign name id seq_num value flags =>
    obtain rfl := Option.some.inj hm
    exact ⟨readable_of_cut h.1, value_supported_of_received h.2⟩
  | entryUpdate id seq_num value =>
    obtain rfl := Option.some.inj hm
    refine ⟨value_supported_of_received h.1, fun hold => ?_⟩
    rw [← Value.received_type proto_rev, ← h.2 hold, Nat.mod_mod]
  | clientHello _ str | serverHello _ str | executeRpc _ _ str | rpcResponse _ _ str =>
    by_cases hold : proto_rev < 0x0300
    · exact .inl hold
    · simp only [received, hold, ↓reduceIte] at hm
      obtain rfl := Option.some.inj hm
      exact h
  | _ => trivial

/-- A batch is delivered if and only if the revision supports every message of it. -/
theorem delivered_iff (hrev : proto_rev < 0x10000) : Delivered proto_rev get_entry_type msgs ↔
    ∀ m, some m ∈ msgs → m.Supported proto_rev get_entry_type := by
  refine ⟨fun h m hm => ?_, delivered_of_supported hrev⟩
  cases hreceived : m.received proto_rev with
  | none => exact supported_of_received_none hreceived
  | some m' =>
    have hmem : m' ∈ arriving proto_rev msgs := List.mem_filterMap.mpr ⟨some m, hm, hreceived⟩
    have hcarried := (returns_message.many _ _ _ (h [])).2 m' hmem
    exact supported_of_received hreceived (hcarried proto_rev id).1

theorem delivered_update_old : Delivered 0x0200 (fun _ => .NT_DOUBLE)
    [some (entryUpdate 3 7 (.double 5)), none, some clearEntries] := by
  refine (delivered_iff (by decide)).mpr fun m hm => ?_
  simp only [List.mem_cons, Option.some.injEq, reduceCtorEq, List.not_mem_nil, or_false,
    false_or] at hm
  obtain rfl | rfl := hm
  · exact ⟨trivial, fun _ => rfl⟩
  · trivial

/-- What is accepted on one connection is delivered unchanged on every newer one. -/
theorem accepted_relayed {later : ℕ} {s rest : Bytes} {m : Message}
    (hread : (Message.Read proto_rev get_entry_type).run s = .ok (m, rest))
    (hm : ¬ m.StatesRevision) (hlater : Newer proto_rev later) (hrev : later < 0x10000) :
    Takes (Message.Read later get_entry_type) (WriteThread later [some m]) m := by
  obtain ⟨hsupported, hreceived⟩ := returns_message s m rest hread later hlater
  rw [writeThread_eq, List.flatMap_singleton]
  exact takes_message hrev hsupported (hreceived hm)

theorem accepted_relayed_flags : Takes (Message.Read 0x0301 fun _ => .NT_DOUBLE)
    (WriteThread 0x0301 [some (.flagsUpdate 260 1)]) (.flagsUpdate 260 1) :=
  accepted_relayed (show (Message.Read 0x0300 fun _ => .NT_DOUBLE).run [0x12, 1, 4, 1] =
    .ok (.flagsUpdate 260 1, []) from rfl) id (fun hold => absurd hold (by decide)) (by decide)

end Batch

end SparxRobot.NetworkTables
