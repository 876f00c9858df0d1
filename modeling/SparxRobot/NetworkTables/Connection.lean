import SparxRobot.NetworkTables.Message

/-! The messages a connection is to send. They are collected until the dispatcher posts them as
one batch, and an update takes the place of the one before it. -/
namespace SparxRobot.NetworkTables

/-- `pending_update` has for every id one more than where its pending value and its pending flags
are, or zero. The time is in nanoseconds. -/
structure NetworkConnection where
  proto_rev : ℕ := 0x0300
  outgoing : List (List (Option Message)) := []
  last_post : ℕ := 0
  pending_outgoing : List (Option Message) := []
  pending_update : List (ℕ × ℕ) := []
  deriving DecidableEq

namespace NetworkConnection
open Message

variable (c : NetworkConnection)

def push_back (msg : Message) : NetworkConnection :=
  { c with pending_outgoing := c.pending_outgoing ++ [some msg] }

/-- Undefined behind the last message. -/
def assign (pos : ℕ) (msg : Option Message) : Option NetworkConnection :=
  if pos < c.pending_outgoing.length then
    some { c with pending_outgoing := c.pending_outgoing.set pos msg }
  else none

/-- The pending value of an id or its pending flags. -/
inductive Slot where
  | first
  | second
  deriving DecidableEq

namespace Slot

def get : Slot → ℕ × ℕ → ℕ
  | first, u => u.1
  | second, u => u.2

def put (n : ℕ) : Slot → ℕ × ℕ → ℕ × ℕ
  | first, u => (n, u.2)
  | second, u => (u.1, n)

end Slot

/-- What the table holds; no row is a row of zeros. -/
def position (slot : Slot) (id : ℕ) : ℕ := slot.get (c.pending_update.getD id (0, 0))

def resize (n : ℕ) (l : List (ℕ × ℕ)) : List (ℕ × ℕ) :=
  l.take n ++ List.replicate (n - l.length) (0, 0)

/-- New, but remembered. -/
def remember (slot : Slot) (id : ℕ) (msg : Message) : NetworkConnection :=
  let pos := c.pending_outgoing.length
  let c := c.push_back msg
  let update :=
    if id ≥ c.pending_update.length then resize (id + 1) c.pending_update else c.pending_update
  { c with pending_update := update.modify id (slot.put (pos + 1)) }

/-- An update of an assignment that is still pending goes into it. -/
def merge (id : ℕ) (oldmsg : Option Message) (msg : Message) : Message :=
  match oldmsg, msg with
  | some (entryAssign str _ _ _ flags), entryUpdate _ seq_num value =>
      entryAssign str id seq_num value flags
  | _, _ => msg

def queueValue (id : ℕ) (msg : Message) : Option NetworkConnection :=
  if id = 0xffff then some (c.push_back msg)
  else if c.position .first id ≠ 0 then do
    let oldmsg ← c.pending_outgoing[c.position .first id - 1]?
    c.assign (c.position .first id - 1) (some (merge id oldmsg msg))
  else some (c.remember .first id msg)

def queueFlags (id : ℕ) (msg : Message) : Option NetworkConnection :=
  if id = 0xffff then some (c.push_back msg)
  else if c.position .second id ≠ 0 then c.assign (c.position .second id - 1) (some msg)
  else some (c.remember .second id msg)

/-- Takes back what is pending. -/
def clear (slot : Slot) (id : ℕ) : Option NetworkConnection :=
  if c.position slot id ≠ 0 then do
    let c' ← c.assign (c.position slot id - 1) none
    return { c' with pending_update := c'.pending_update.modify id (slot.put 0) }
  else some c

def queueDelete (id : ℕ) (msg : Message) : Option NetworkConnection :=
  if id = 0xffff then some (c.push_back msg)
  else do
    let c ← c.clear .first id
    let c ← c.clear .second id
    return c.push_back msg

/-- What a CLEAR_ENTRIES knocks out. -/
def knockedOut : Message → Bool
  | entryAssign .. | entryUpdate .. | flagsUpdate .. | entryDelete .. | clearEntries => true
  | _ => false

/-- No result is undefined behaviour. -/
def QueueOutgoing (msg : Message) : Option NetworkConnection :=
  match msg with
  | entryAssign _ id _ _ _ | entryUpdate id _ _ => c.queueValue id msg
  | entryDelete id => c.queueDelete id msg
  | flagsUpdate id _ => c.queueFlags id msg
  | clearEntries =>
      let outgoing := c.pending_outgoing.map fun i => i.filter fun m => !knockedOut m
      some { c with pending_outgoing := outgoing ++ [some msg], pending_update := [] }
  | _ => some (c.push_back msg)

/-- A client sends a message every second at least. -/
def PostOutgoing (keep_alive : Bool) (now : ℕ) : NetworkConnection :=
  if c.pending_outgoing.isEmpty then
    if !keep_alive then c
    else if now - c.last_post < 1000000000 then c
    else { c with outgoing := c.outgoing ++ [[some keepAlive]], last_post := now }
  else
    { c with outgoing := c.outgoing ++ [c.pending_outgoing], pending_outgoing := [],
             pending_update := [], last_post := now }

end NetworkConnection

end SparxRobot.NetworkTables
