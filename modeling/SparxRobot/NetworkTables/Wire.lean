import SparxRobot.Codec.BigEndian
import SparxRobot.NetworkTables.Leb128
import SparxRobot.NetworkTables.Value

/-! The encoder and the decoder of a connection. What they write and read depends on the
revision of the protocol the connection has, `0x0200` or `0x0300` for 2.0 and 3.0. -/
namespace SparxRobot.NetworkTables
open Codec

structure WireEncoder where
  proto_rev : ℕ
  error : Option String := none
  data : Bytes := []

namespace WireEncoder

def append (e : WireEncoder) (w : Bytes) : WireEncoder := { e with data := e.data ++ w }

def fail (e : WireEncoder) (error : String) : WireEncoder := { e with error := some error }

def Write8 (e : WireEncoder) (val : ℕ) : WireEncoder := e.append (bytes 1 val)
def Write16 (e : WireEncoder) (val : ℕ) : WireEncoder := e.append (bytes 2 val)
def Write32 (e : WireEncoder) (val : ℕ) : WireEncoder := e.append (bytes 4 val)
def WriteDouble (e : WireEncoder) (val : Double) : WireEncoder := e.append (bytes 8 val.toNat)
def WriteUleb128 (e : WireEncoder) (val : ℕ) : WireEncoder := e.append (uleb128 val)

def WriteType (e : WireEncoder) : NT_Type → WireEncoder
  | .NT_BOOLEAN => e.append [0x00]
  | .NT_DOUBLE => e.append [0x01]
  | .NT_STRING => e.append [0x02]
  | .NT_RAW =>
      if e.proto_rev < 0x0300 then e.fail "raw type not supported in protocol < 3.0"
      else e.append [0x03]
  | .NT_BOOLEAN_ARRAY => e.append [0x10]
  | .NT_DOUBLE_ARRAY => e.append [0x11]
  | .NT_STRING_ARRAY => e.append [0x12]
  | .NT_RPC =>
      if e.proto_rev < 0x0300 then e.fail "RPC type not supported in protocol < 3.0"
      else e.append [0x20]
  | .NT_UNASSIGNED => e.fail "unrecognized type"

/-- In protocol 2.0 a string is cut at 64K. -/
def WriteString (e : WireEncoder) (str : Bytes) : WireEncoder :=
  if e.proto_rev < 0x0300 then
    let len := min str.length 0xffff
    (e.Write16 len).append (str.take len)
  else (e.WriteUleb128 str.length).append str

/-- The size of an array is one byte, so arrays are cut too. -/
def WriteValue (e : WireEncoder) : Value → WireEncoder
  | .boolean b => e.Write8 (if b then 1 else 0)
  | .double d => e.WriteDouble d
  | .string s => e.WriteString s
  | .raw s =>
      if e.proto_rev < 0x0300 then e.fail "raw values not supported in protocol < 3.0"
      else e.WriteString s
  | .rpc s =>
      if e.proto_rev < 0x0300 then e.fail "RPC values not supported in protocol < 3.0"
      else e.WriteString s
  | .booleanArray v =>
      let size := min v.length 0xff
      (v.take size).foldl (fun e b => e.Write8 (if b ≠ 0 then 1 else 0)) (e.Write8 size)
  | .doubleArray v =>
      let size := min v.length 0xff
      (v.take size).foldl WriteDouble (e.Write8 size)
  | .stringArray v =>
      let size := min v.length 0xff
      (v.take size).foldl WriteString (e.Write8 size)
  | .unassigned => e.fail "unrecognized type when writing value"

end WireEncoder

namespace WireDecoder

def Read (len : ℕ) : WireDecoder Bytes := take .ended len

def Read8 : WireDecoder ℕ := return number (← Read 1)
def Read16 : WireDecoder ℕ := return number (← Read 2)
def Read32 : WireDecoder ℕ := return number (← Read 4)
def ReadDouble : WireDecoder Double := return UInt64.ofNat (number (← Read 8))

def typeOf : ℕ → Option NT_Type
  | 0x00 => some .NT_BOOLEAN
  | 0x01 => some .NT_DOUBLE
  | 0x02 => some .NT_STRING
  | 0x03 => some .NT_RAW
  | 0x10 => some .NT_BOOLEAN_ARRAY
  | 0x11 => some .NT_DOUBLE_ARRAY
  | 0x12 => some .NT_STRING_ARRAY
  | 0x20 => some .NT_RPC
  | _ => none

def ReadType : WireDecoder NT_Type := do
  match typeOf (← Read8) with
  | some type => return type
  | none => fail (.error "unrecognized value type")

def ReadString (proto_rev : ℕ) : WireDecoder Bytes := do
  let len ← if proto_rev < 0x0300 then Read16 else ReadUleb128
  Read len

/-- The doubles of a buffer. -/
def doubles : ℕ → Bytes → List Double
  | 0, _ => []
  | size + 1, buf => UInt64.ofNat (number (buf.take 8)) :: doubles size (buf.drop 8)

def ReadValue (proto_rev : ℕ) : NT_Type → WireDecoder Value
  | .NT_BOOLEAN => return .boolean ((← Read8) ≠ 0)
  | .NT_DOUBLE => return .double (← ReadDouble)
  | .NT_STRING => return .string (← ReadString proto_rev)
  | .NT_RAW =>
      if proto_rev < 0x0300 then fail (.error "received raw value in protocol < 3.0")
      else return .raw (← ReadString proto_rev)
  | .NT_RPC =>
      if proto_rev < 0x0300 then fail (.error "received RPC value in protocol < 3.0")
      else return .rpc (← ReadString proto_rev)
  | .NT_BOOLEAN_ARRAY => do
      let buf ← Read (← Read8)
      return .booleanArray (buf.map fun b => if b ≠ 0 then 1 else 0)
  | .NT_DOUBLE_ARRAY => do
      let size ← Read8
      let buf ← Read (size * 8)
      return .doubleArray (doubles size buf)
  | .NT_STRING_ARRAY => return .stringArray (← many (ReadString proto_rev) (← Read8))
  | .NT_UNASSIGNED => fail (.error "invalid type when trying to read value")

end WireDecoder

end SparxRobot.NetworkTables
