import SparxRobot.NetworkTables.Storage

/-! How a connection begins. Each side is a function of the messages that the other sends before
it is gone, and sends batches that do not depend on what it has not read yet. -/
namespace SparxRobot.NetworkTables
open Message

/-- `rest` is left to the connection, and `reconnect` the revision to try next. -/
structure Handshake where
  established : Bool := false
  sent : List (List Message)
  storage : Storage
  proto_rev : ℕ
  remote_id : Bytes := []
  effects : Effects := {}
  reconnect : Option ℕ := none
  rest : List Message := []
  deriving DecidableEq

/-- The messages of a connection are processed one after the other. -/
def Storage.processAll (conn : Storage.Connection) : List Message → Storage → Option (Storage × Effects)
  | [], s => some (s, {})
  | msg :: msgs, s => do
      let (s, effects) ← s.ProcessIncoming conn msg
      let (s, effects') ← processAll conn msgs s
      return (s, effects.append effects')

namespace Dispatcher

/-- The assignments in front of the message that ends them. A keep alive is skipped, and any
other message ends the handshake. -/
def receiveAssigns (done : Message) : List Message → Option (List Message × List Message)
  | [] => none
  | msg :: msgs =>
      if msg = done then some ([], msgs)
      else match msg with
        | keepAlive => receiveAssigns done msgs
        | entryAssign .. =>
            (receiveAssigns done msgs).map fun (incoming, rest) => (msg :: incoming, rest)
        | _ => none

variable (s : Storage)

/-- What the client does with the assignments of the server. -/
def receiveInitial (conn : Storage.Connection) (hello : Handshake) (new_server : Bool)
    (msgs : List Message) : Option Handshake :=
  match receiveAssigns serverHelloDone msgs with
  | none => some hello
  | some (incoming, rest) => do
      let (out_msgs, s, effects) ← s.ApplyInitialAssignments conn incoming new_server
      let outgoing := out_msgs ++ if 0x0300 ≤ conn.proto_rev then [clientHelloDone] else []
      return { hello with
        established := true, storage := s, effects := effects, rest := rest
        sent := hello.sent ++ if outgoing = [] then [] else [outgoing] }

/-- A server that has been reached before says so in the first bit of its flags. -/
def ClientHandshake (conn : Storage.Connection) (self_id : Bytes) (msgs : List Message) :
    Option Handshake :=
  let hello : Handshake :=
    { sent := [[clientHello 0 self_id]], storage := s, proto_rev := conn.proto_rev }
  match msgs with
  | [] => some hello
  | protoUnsup id :: _ => some { hello with reconnect := if id = 0x0200 then some 0x0200 else none }
  | msg :: rest =>
      if 0x0300 ≤ conn.proto_rev then match msg with
        | serverHello flags remote_id =>
            receiveInitial s conn { hello with remote_id := remote_id } (flags &&& 1 = 0) rest
        | _ => some hello
      else receiveInitial s conn hello true msgs

/-- Before 3.0 the client's assignments are left to the connection. -/
def ServerHandshake (conn : Storage.Connection) (identity : Bytes) (msgs : List Message) :
    Option Handshake :=
  match msgs with
  | clientHello proto_rev self_id :: msgs =>
      if 0x0300 < proto_rev then
        some { sent := [[protoUnsup 0]], storage := s, proto_rev := conn.proto_rev }
      else do
        let assigns ← s.GetInitialAssignments
        let outgoing := (if 0x0300 ≤ proto_rev then [serverHello 0 identity] else []) ++ assigns ++
          [serverHelloDone]
        let hello : Handshake :=
          { sent := [outgoing], storage := s, proto_rev := proto_rev
            remote_id := if 0x0300 ≤ proto_rev then self_id else [] }
        if 0x0300 ≤ proto_rev then match receiveAssigns clientHelloDone msgs with
          | none => return hello
          | some (incoming, rest) =>
              let (s, effects) ← s.processAll ⟨conn.uid, proto_rev⟩ incoming
              return { hello with established := true, storage := s, effects := effects, rest := rest }
        else return { hello with established := true, rest := msgs }
  | _ => some { sent := [], storage := s, proto_rev := conn.proto_rev }

end Dispatcher

end SparxRobot.NetworkTables
