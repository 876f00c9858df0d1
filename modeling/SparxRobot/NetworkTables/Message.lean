import SparxRobot.NetworkTables.WireFormat

/-! The messages of a connection, how they are written and how they are read. A connection that
is older than 3.0 has no bytes for some of them. -/
namespace SparxRobot.NetworkTables
open Codec

/-- The numbers are unsigned ints, of which the wire has 16 bits, and 8 of the flags. -/
inductive Message where
  | keepAlive
  | clientHello (proto_rev : ℕ) (self_id : Bytes)
  | protoUnsup (proto_rev : ℕ)
  | serverHelloDone
  | serverHello (flags : ℕ) (self_id : Bytes)
  | clientHelloDone
  | entryAssign (name : Bytes) (id seq_num : ℕ) (value : Value) (flags : ℕ)
  | entryUpdate (id seq_num : ℕ) (value : Value)
  | flagsUpdate (id flags : ℕ)
  | entryDelete (id : ℕ)
  | clearEntries
  | executeRpc (id uid : ℕ) (params : Bytes)
  | rpcResponse (id uid : ℕ) (results : Bytes)
  deriving DecidableEq

def kClearAllMagic : ℕ := 0xD06CB27A

namespace Message
open WireDecoder

/-- A hello states the revision of the encoder. -/
def Write (e : WireEncoder) : Message → WireEncoder
  | keepAlive => e.Write8 0x00
  | clientHello _ self_id =>
      let e := (e.Write8 0x01).Write16 e.proto_rev
      if e.proto_rev < 0x0300 then e else e.WriteString self_id
  | protoUnsup _ => (e.Write8 0x02).Write16 e.proto_rev
  | serverHelloDone => e.Write8 0x03
  | serverHello flags self_id =>
      if e.proto_rev < 0x0300 then e else ((e.Write8 0x04).Write8 flags).WriteString self_id
  | clientHelloDone => if e.proto_rev < 0x0300 then e else e.Write8 0x05
  | entryAssign name id seq_num value flags =>
      let e := (e.Write8 0x10).WriteString name
      let e := ((e.WriteType value.type).Write16 id).Write16 seq_num
      let e := if 0x0300 ≤ e.proto_rev then e.Write8 flags else e
      e.WriteValue value
  | entryUpdate id seq_num value =>
      let e := ((e.Write8 0x11).Write16 id).Write16 seq_num
      let e := if 0x0300 ≤ e.proto_rev then e.WriteType value.type else e
      e.WriteValue value
  | flagsUpdate id flags =>
      if e.proto_rev < 0x0300 then e else ((e.Write8 0x12).Write16 id).Write8 flags
  | entryDelete id => if e.proto_rev < 0x0300 then e else (e.Write8 0x13).Write16 id
  | clearEntries => if e.proto_rev < 0x0300 then e else (e.Write8 0x14).Write32 kClearAllMagic
  | executeRpc id uid params =>
      if e.proto_rev < 0x0300 then e
      else (((e.Write8 0x20).Write16 id).Write16 uid).WriteString params
  | rpcResponse id uid results =>
      if e.proto_rev < 0x0300 then e
      else (((e.Write8 0x21).Write16 id).Write16 uid).WriteString results

/-- What is new in version 3.0 is refused before. -/
def since3 {α : Type} (proto_rev : ℕ) (error : String) (r : WireDecoder α) : WireDecoder α :=
  if proto_rev < 0x0300 then fail (.error error) else r

/-- The data behind the type of a message. In an older connection the type of an update's value
is that of the entry the reader has. -/
def readData (proto_rev : ℕ) (get_entry_type : ℕ → NT_Type) : ℕ → WireDecoder Message
  | 0x00 => return keepAlive
  | 0x01 => do
      let rev ← Read16
      let str ← (if 0x0300 ≤ rev then ReadString proto_rev else pure [])
      return clientHello rev str
  | 0x02 => return protoUnsup (← Read16)
  | 0x03 => return serverHelloDone
  | 0x04 => since3 proto_rev "received SERVER_HELLO in protocol < 3.0" do
      let flags ← Read8
      let str ← ReadString proto_rev
      return serverHello flags str
  | 0x05 => since3 proto_rev "received CLIENT_HELLO_DONE in protocol < 3.0" do
      return clientHelloDone
  | 0x10 => do
      let name ← ReadString proto_rev
      let type ← ReadType
      let id ← Read16
      let seq_num ← Read16
      let flags ← (if 0x0300 ≤ proto_rev then Read8 else pure 0)
      let value ← ReadValue proto_rev type
      return entryAssign name id seq_num value flags
  | 0x11 => do
      let id ← Read16
      let seq_num ← Read16
      let type ← (if 0x0300 ≤ proto_rev then ReadType else pure (get_entry_type id))
      let value ← ReadValue proto_rev type
      return entryUpdate id seq_num value
  | 0x12 => since3 proto_rev "received FLAGS_UPDATE in protocol < 3.0" do
      let id ← Read16
      let flags ← Read8
      return flagsUpdate id flags
  | 0x13 => since3 proto_rev "received ENTRY_DELETE in protocol < 3.0" do
      return entryDelete (← Read16)
  | 0x14 => since3 proto_rev "received CLEAR_ENTRIES in protocol < 3.0" do
      let magic ← Read32
      if magic ≠ kClearAllMagic then
        fail (.error "received incorrect CLEAR_ENTRIES magic value, ignoring")
      else return clearEntries
  | 0x20 => since3 proto_rev "received EXECUTE_RPC in protocol < 3.0" do
      let id ← Read16
      let uid ← Read16
      let params ← WireDecoder.Read (← ReadUleb128)
      return executeRpc id uid params
  | 0x21 => since3 proto_rev "received RPC_RESPONSE in protocol < 3.0" do
      let id ← Read16
      let uid ← Read16
      let results ← WireDecoder.Read (← ReadUleb128)
      return rpcResponse id uid results
  | _ => fail (.error "unrecognized message type")

def Read (proto_rev : ℕ) (get_entry_type : ℕ → NT_Type) : WireDecoder Message := do
  readData proto_rev get_entry_type (← Read8)

end Message

/-- The bytes the write thread sends for a batch. A message that was merged into another is
null. -/
def WriteThread (proto_rev : ℕ) (msgs : List (Option Message)) : Bytes :=
  (msgs.foldl (fun e msg => match msg with
    | some msg => msg.Write e
    | none => e) { proto_rev := proto_rev : WireEncoder }).data

end SparxRobot.NetworkTables
