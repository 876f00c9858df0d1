import SparxRobot.NetworkTables.Wire

/-! What the encoder writes and what the decoder makes of it. Strings and arrays that are too
long arrive cut, and what the revision has no bytes for does not arrive at all. -/
namespace SparxRobot.NetworkTables
open Codec

/-- A string as it arrives. -/
def cut (proto_rev : ℕ) (s : Bytes) : Bytes := if proto_rev < 0x0300 then s.take 0xffff else s

/-- The sizes a decoder reads without undefined behaviour. -/
def Readable (proto_rev : ℕ) (s : Bytes) : Prop := proto_rev < 0x0300 ∨ s.length < 2147483648

namespace Value

/-- A value as it arrives. -/
def received (proto_rev : ℕ) : Value → Value
  | string s => string (cut proto_rev s)
  | raw s => raw (cut proto_rev s)
  | rpc s => rpc (cut proto_rev s)
  | booleanArray v => booleanArray ((v.take 0xff).map fun b => if b ≠ 0 then 1 else 0)
  | doubleArray v => doubleArray (v.take 0xff)
  | stringArray v => stringArray ((v.take 0xff).map (cut proto_rev))
  | v => v

/-- The values a connection of the revision can carry. -/
def Supported (proto_rev : ℕ) : Value → Prop
  | unassigned => False
  | string s => Readable proto_rev s
  | raw s | rpc s => 0x0300 ≤ proto_rev ∧ Readable proto_rev s
  | stringArray v => ∀ s ∈ v.take 0xff, Readable proto_rev s
  | _ => True

@[simp] theorem received_type (proto_rev : ℕ) (v : Value) : (v.received proto_rev).type = v.type := by
  cases v <;> rfl

end Value

section Encoding

variable (e : WireEncoder) (proto_rev : ℕ)

def typeBytes : NT_Type → Bytes
  | .NT_BOOLEAN => [0x00]
  | .NT_DOUBLE => [0x01]
  | .NT_STRING => [0x02]
  | .NT_RAW => if proto_rev < 0x0300 then [] else [0x03]
  | .NT_BOOLEAN_ARRAY => [0x10]
  | .NT_DOUBLE_ARRAY => [0x11]
  | .NT_STRING_ARRAY => [0x12]
  | .NT_RPC => if proto_rev < 0x0300 then [] else [0x20]
  | .NT_UNASSIGNED => []

def stringBytes (s : Bytes) : Bytes :=
  if proto_rev < 0x0300 then bytes 2 (cut proto_rev s).length ++ cut proto_rev s
  else uleb128 s.length ++ s

def valueBytes : Value → Bytes
  | .boolean b => bytes 1 (if b then 1 else 0)
  | .double d => bytes 8 d.toNat
  | .string s => stringBytes proto_rev s
  | .raw s | .rpc s => if proto_rev < 0x0300 then [] else stringBytes proto_rev s
  | .booleanArray v =>
      bytes 1 (v.take 0xff).length ++ (v.take 0xff).flatMap fun b => bytes 1 (if b ≠ 0 then 1 else 0)
  | .doubleArray v => bytes 1 (v.take 0xff).length ++ (v.take 0xff).flatMap fun d => bytes 8 d.toNat
  | .stringArray v =>
      bytes 1 (v.take 0xff).length ++ (v.take 0xff).flatMap (stringBytes proto_rev)
  | .unassigned => []

/-- What was written is in the buffer behind what it held, and the revision is the same. -/
structure Writes (e' : WireEncoder) (w : Bytes) : Prop where
  data : e'.data = e.data ++ w
  proto_rev : e'.proto_rev = e.proto_rev

variable {e} {e' e'' : WireEncoder} {w w' : Bytes}

theorem writes_append (e : WireEncoder) (w : Bytes) : Writes e (e.append w) w := ⟨rfl, rfl⟩

theorem writes_fail (e : WireEncoder) (error : String) : Writes e (e.fail error) [] :=
  ⟨(List.append_nil _).symm, rfl⟩

theorem Writes.trans (h : Writes e e' w) (h' : Writes e' e'' w') : Writes e e'' (w ++ w') :=
  ⟨by rw [h'.data, h.data, List.append_assoc], h'.proto_rev.trans h.proto_rev⟩

theorem Writes.foldl {α : Type} {write : WireEncoder → α → WireEncoder} {word : α → Bytes}
    (hwrite : ∀ e' a, e'.proto_rev = e.proto_rev → Writes e' (write e' a) (word a)) (l : List α)
    (h : Writes e e' w) : Writes e (l.foldl write e') (w ++ l.flatMap word) := by
  induction l generalizing e' w with
  | nil => simpa using h
  | cons a l ih =>
    rw [List.foldl_cons, List.flatMap_cons, ← List.append_assoc]
    exact ih (h.trans (hwrite e' a h.proto_rev))

theorem take_min_length {α : Type} (l : List α) (n : ℕ) : l.take (min l.length n) = l.take n := by
  rw [min_comm, ← List.take_take, List.take_length]

theorem writes_type (e : WireEncoder) (type : NT_Type) :
    Writes e (e.WriteType type) (typeBytes e.proto_rev type) := by
  unfold WireEncoder.WriteType typeBytes
  cases type with
  | NT_RAW | NT_RPC =>
    dsimp only
    split
    · exact writes_fail e _
    · exact writes_append e _
  | NT_UNASSIGNED => exact writes_fail e _
  | _ => exact writes_append e _

theorem writes_string (e : WireEncoder) (s : Bytes) :
    Writes e (e.WriteString s) (stringBytes e.proto_rev s) := by
  unfold WireEncoder.WriteString stringBytes
  split
  · next hrev =>
    have hcut : cut e.proto_rev s = s.take (min s.length 0xffff) := by
      rw [cut, if_pos hrev, take_min_length]
    have hlength : (cut e.proto_rev s).length = min s.length 0xffff := by
      rw [hcut, List.length_take, min_eq_left (min_le_left _ _)]
    rw [hlength, hcut]
    exact (writes_append e _).trans (writes_append _ _)
  · exact (writes_append e _).trans (writes_append _ _)

/-- An array is its size and its elements. -/
theorem writes_array {α : Type} {write : WireEncoder → α → WireEncoder} {word : α → Bytes}
    (hwrite : ∀ e' a, e'.proto_rev = e.proto_rev → Writes e' (write e' a) (word a)) (v : List α) :
    Writes e ((v.take (min v.length 0xff)).foldl write (e.Write8 (min v.length 0xff)))
      (bytes 1 (v.take 0xff).length ++ (v.take 0xff).flatMap word) := by
  rw [take_min_length, List.length_take, min_comm v.length]
  exact (writes_append e _).foldl hwrite _

theorem writes_value (e : WireEncoder) (v : Value) :
    Writes e (e.WriteValue v) (valueBytes e.proto_rev v) := by
  cases v with
  | unassigned => exact writes_fail e _
  | boolean b => exact writes_append e _
  | double d => exact writes_append e _
  | string s => exact writes_string e s
  | raw s | rpc s =>
    unfold WireEncoder.WriteValue valueBytes
    dsimp only
    split
    · exact writes_fail e _
    · exact writes_string e s
  | booleanArray v =>
    refine writes_array (fun e' b _ => ?_) v
    exact writes_append e' _
  | doubleArray v =>
    refine writes_array (fun e' d _ => ?_) v
    exact writes_append e' _
  | stringArray v => exact writes_array (fun e' s hrev => hrev ▸ writes_string e' s) v

end Encoding

section Decoding
open WireDecoder

variable {proto_rev : ℕ}

theorem takes_read {w : Bytes} {n : ℕ} (h : w.length = n) : Takes (Read n) w w :=
  h ▸ takes_take Failure.ended w

theorem takes_number (k n : ℕ) : Takes (do return number (← Read k)) (bytes k n) (n % 256 ^ k) :=
  (takes_read (length_bytes k n)).bind_pure (number_bytes k n)

theorem takes_read8 {n : ℕ} (h : n < 256) : Takes Read8 (bytes 1 n) n := by
  have hnumber := takes_number 1 n
  rwa [Nat.pow_one, Nat.mod_eq_of_lt h] at hnumber

theorem takes_read16 (n : ℕ) : Takes Read16 (bytes 2 n) (n % 65536) := takes_number 2 n

theorem takes_read32 (n : ℕ) : Takes Read32 (bytes 4 n) (n % 4294967296) := takes_number 4 n

theorem number_double (d : Double) : UInt64.ofNat (number (bytes 8 d.toNat)) = d := by
  have hlt : d.toNat < 256 ^ 8 := d.toNat_lt
  rw [number_bytes, Nat.mod_eq_of_lt hlt, UInt64.ofNat_toNat]

theorem takes_readDouble (d : Double) : Takes ReadDouble (bytes 8 d.toNat) d :=
  (takes_read (length_bytes 8 _)).bind_pure (number_double d)

theorem takes_readType {type : NT_Type} {code : ℕ} (hlt : code < 256)
    (h : typeOf code = some type) : Takes ReadType (bytes 1 code) type := by
  intro rest
  refine run_bind_eq_ok.mpr ⟨code, rest, takes_read8 hlt rest, ?_⟩
  rw [h]
  rfl

theorem takes_readString {s : Bytes} (h : Readable proto_rev s) :
    Takes (ReadString proto_rev) (stringBytes proto_rev s) (cut proto_rev s) := by
  unfold ReadString stringBytes
  by_cases hrev : proto_rev < 0x0300
  · have hlength : (cut proto_rev s).length < 65536 := by
      rw [cut, if_pos hrev, List.length_take]
      omega
    have hsize := takes_read16 (cut proto_rev s).length
    rw [Nat.mod_eq_of_lt hlength] at hsize
    rw [if_pos hrev, if_pos hrev]
    exact hsize.bind (takes_read rfl)
  · have hcut : cut proto_rev s = s := if_neg hrev
    rw [if_neg hrev, if_neg hrev, hcut]
    exact (takes_readUleb128 (h.resolve_left hrev)).bind (takes_read rfl)

theorem flatMap_booleans (v : List Int32) :
    (v.flatMap fun b => bytes 1 (if b ≠ 0 then 1 else 0)) = v.map fun b => if b ≠ 0 then 1 else 0 := by
  induction v with
  | nil => rfl
  | cons b v ih =>
    rw [List.flatMap_cons, ih, List.map_cons]
    split <;> rfl

theorem length_flatMap_doubles (v : List Double) :
    (v.flatMap fun d => bytes 8 d.toNat).length = v.length * 8 := by
  induction v with
  | nil => rfl
  | cons d v ih =>
    rw [List.flatMap_cons, List.length_append, length_bytes, ih, List.length_cons]
    omega

theorem doubles_flatMap (v : List Double) :
    doubles v.length (v.flatMap fun d => bytes 8 d.toNat) = v := by
  induction v with
  | nil => rfl
  | cons d v ih =>
    rw [List.flatMap_cons, List.length_cons, doubles, List.take_left' (length_bytes 8 _),
      List.drop_left' (length_bytes 8 _), ih, number_double]

theorem takes_size {α : Type} (v : List α) :
    Takes Read8 (bytes 1 (v.take 0xff).length) (v.take 0xff).length := by
  refine takes_read8 ?_
  rw [List.length_take]
  omega

/-- A value of a type the revision has is read as it arrives. -/
theorem takes_readValue {v : Value} (h : v.Supported proto_rev) :
    Takes (ReadValue proto_rev v.type) (valueBytes proto_rev v) (v.received proto_rev) := by
  cases v with
  | unassigned => exact h.elim
  | boolean b =>
    refine (takes_read8 (n := if b then 1 else 0) ?_).bind_pure ?_
    · split <;> omega
    · cases b <;> rfl
  | double d => exact (takes_readDouble d).bind_pure rfl
  | string s => exact (takes_readString h).bind_pure rfl
  | raw s | rpc s =>
    have hrev : ¬ proto_rev < 0x0300 := not_lt.mpr h.1
    unfold ReadValue valueBytes
    simp only [Value.type, if_neg hrev]
    exact (takes_readString h.2).bind_pure rfl
  | booleanArray v =>
    refine (takes_size v).bind ((takes_read ?_).bind_pure ?_)
    · rw [flatMap_booleans, List.length_map]
    · rw [flatMap_booleans, List.map_map, Value.received]
      congr 1
      refine List.map_congr_left fun b _ => ?_
      by_cases hb : b = 0 <;> simp [hb]
  | doubleArray v =>
    refine (takes_size v).bind ((takes_read (length_flatMap_doubles _)).bind_pure ?_)
    rw [doubles_flatMap, Value.received]
  | stringArray v =>
    refine (takes_size v).bind (Takes.bind_pure (Takes.many fun s hs => ?_) rfl)
    exact takes_readString (h s hs)

end Decoding

/-- The second revision can carry what the first one can. -/
def Newer (proto_rev later : ℕ) : Prop := later < 0x0300 → proto_rev < 0x0300

section Accepted
open WireDecoder

variable {proto_rev : ℕ}

/-- Strings that every newer connection carries as they are. -/
def CarriedString (proto_rev : ℕ) (s : Bytes) : Prop :=
  ∀ later, Newer proto_rev later → Readable later s ∧ cut later s = s

theorem returns_number {k : ℕ} : Returns (do return number (← Read k)) fun n => n < 256 ^ k :=
  (returns_take _).bind fun w hw => returns_pure (hw ▸ number_lt w)

theorem carried_of_length {s : Bytes}
    (h : s.length < if proto_rev < 0x0300 then 65536 else 2147483648) : CarriedString proto_rev s := by
  intro later hlater
  unfold Readable cut
  split
  · next hold =>
    rw [if_pos (hlater hold)] at h
    exact ⟨.inl hold, List.take_of_length_le (by omega)⟩
  · refine ⟨.inr ?_, rfl⟩
    split at h <;> omega

theorem returns_readString : Returns (ReadString proto_rev) (CarriedString proto_rev) := by
  unfold ReadString
  split
  · next hold =>
    refine returns_number.bind fun len hlen => (returns_take _).mono fun s hs => ?_
    refine carried_of_length ?_
    rw [if_pos hold, hs]
    exact hlen
  · next hnew =>
    refine (returns_readUleb128 (by omega)).bind fun len hlen => (returns_take _).mono fun s hs => ?_
    refine carried_of_length ?_
    rw [if_neg hnew, hs]
    exact hlen

theorem length_doubles (size : ℕ) (buf : Bytes) : (doubles size buf).length = size := by
  induction size generalizing buf with
  | zero => rfl
  | succ size ih => rw [doubles, List.length_cons, ih]

/-- Values that every newer connection carries as they are. -/
def Value.Carried (proto_rev : ℕ) (v : Value) : Prop :=
  ∀ later, Newer proto_rev later → v.Supported later ∧ v.received later = v

theorem carried_array {v : List Bytes} (hlength : v.length < 256)
    (h : ∀ s ∈ v, CarriedString proto_rev s) : (Value.stringArray v).Carried proto_rev := by
  intro later hlater
  have htake : v.take 0xff = v := List.take_of_length_le (by omega)
  refine ⟨fun s hs => (h s (List.mem_of_mem_take hs) later hlater).1, ?_⟩
  rw [Value.received, htake]
  congr 1
  conv_rhs => rw [← List.map_id v]
  exact List.map_congr_left fun s hs => (h s hs later hlater).2

theorem returns_readValue (type : NT_Type) :
    Returns (ReadValue proto_rev type) fun v => v.type = type ∧ v.Carried proto_rev := by
  have hsize : Returns Read8 fun n => n < 256 := returns_number
  cases type with
  | NT_UNASSIGNED => exact returns_fail _
  | NT_BOOLEAN | NT_DOUBLE =>
    exact returns_any.bind fun _ _ => returns_pure ⟨rfl, fun _ _ => ⟨trivial, rfl⟩⟩
  | NT_STRING =>
    refine returns_readString.bind fun s hs => returns_pure ⟨rfl, fun later hlater => ?_⟩
    exact ⟨(hs later hlater).1, congrArg _ (hs later hlater).2⟩
  | NT_RAW | NT_RPC =>
    unfold ReadValue
    dsimp only
    split
    · exact returns_fail _
    · next hnew =>
      refine returns_readString.bind fun s hs => returns_pure ⟨rfl, fun later hlater => ?_⟩
      have hlater' : 0x0300 ≤ later := not_lt.mp fun hlt => hnew (hlater hlt)
      exact ⟨⟨hlater', (hs later hlater).1⟩, congrArg _ (hs later hlater).2⟩
  | NT_BOOLEAN_ARRAY =>
    refine hsize.bind fun size hsize => (returns_take _).bind fun buf hbuf => returns_pure ?_
    refine ⟨rfl, fun later _ => ⟨trivial, ?_⟩⟩
    rw [Value.received, List.take_of_length_le (by rw [List.length_map, hbuf]; omega), List.map_map]
    congr 1
    refine List.map_congr_left fun b _ => ?_
    by_cases hb : b = 0 <;> simp [hb]
  | NT_DOUBLE_ARRAY =>
    refine hsize.bind fun size hsize => returns_any.bind fun buf _ => returns_pure ?_
    refine ⟨rfl, fun later _ => ⟨trivial, ?_⟩⟩
    rw [Value.received, List.take_of_length_le (by rw [length_doubles]; omega)]
  | NT_STRING_ARRAY =>
    refine hsize.bind fun size hsize => returns_readString.many.bind fun v hv => returns_pure ?_
    exact ⟨rfl, carried_array (hv.1 ▸ hsize) hv.2⟩

end Accepted

end SparxRobot.NetworkTables
