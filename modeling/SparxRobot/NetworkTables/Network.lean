import Mathlib.Logic.Relation
import SparxRobot.NetworkTables.Outgoing
import SparxRobot.NetworkTables.RoundTrip
import SparxRobot.NetworkTables.Sound

/-! A server and its clients while all connections are active. A thread changes its storage while
it holds the mutex, and queues what it has to send after it has released it: other threads may do
theirs in between. -/
namespace SparxRobot.NetworkTables

inductive Node (ι : Type) where
  | server
  | client (i : ι)
  deriving DecidableEq

/-- The two directions of a client's connection. -/
inductive Link (ι : Type) where
  | up (i : ι)
  | down (i : ι)
  deriving DecidableEq

namespace Link

variable {ι : Type}

def peer : Link ι → ι
  | up i | down i => i

def source : Link ι → Node ι
  | up i => .client i
  | down _ => .server

def target : Link ι → Node ι
  | up _ => .server
  | down i => .client i

end Link

/-- The program's threads, and those that read from a connection. -/
inductive Thread (ι : Type) where
  | user (node : Node ι) (n : ℕ)
  | reader (link : Link ι)
  deriving DecidableEq

def Thread.node {ι : Type} : Thread ι → Node ι
  | user node _ => node
  | reader link => link.target

/-- On the way over a link are the messages as they will be read. -/
structure System (ι : Type) where
  storage : Node ι → Storage
  sender : Link ι → NetworkConnection
  inFlight : Link ι → List Message
  unsent : Thread ι → List Outgoing

section Steps

variable {ι : Type} [DecidableEq ι] (owner : Bytes → Node ι × ℕ) (uid : ι → ℕ)

def ownerThread (name : Bytes) : Thread ι := .user (owner name).1 (owner name).2

/-- The connections that the dispatcher queues a message of the thread on. -/
def Sends (thread : Thread ι) (o : Outgoing) (link : Link ι) : Prop :=
  link.source = thread.node ∧ o.except ≠ some (uid link.peer)

/-- The messages get on. The connections have version 3.0. -/
inductive System.Carry : System ι → System ι → Prop
  | queue {sys : System ι} {thread : Thread ι} {o : Outgoing} {rest : List Outgoing}
      {sender : Link ι → NetworkConnection} :
      sys.unsent thread = o :: rest →
      (∀ link, Sends uid thread o link →
        (sys.sender link).QueueOutgoing o.msg = some (sender link)) →
      (∀ link, ¬ Sends uid thread o link → sender link = sys.sender link) →
      Carry sys { sys with
        sender := sender, unsent := Function.update sys.unsent thread rest }
  | post {sys : System ι} (link : Link ι) (keep_alive : Bool) (now : ℕ) :
      Carry sys { sys with
        sender := Function.update sys.sender link ((sys.sender link).PostOutgoing keep_alive now) }
  | write {sys : System ι} {link : Link ι} {batch : List (Option Message)}
      {rest : List (List (Option Message))} :
      (sys.sender link).outgoing = batch :: rest →
      Carry sys { sys with
        sender := Function.update sys.sender link { sys.sender link with outgoing := rest }
        inFlight := Function.update sys.inFlight link
          (sys.inFlight link ++ arriving 0x0300 batch) }
  | deliver {sys : System ι} {link : Link ι} {msg : Message} {rest : List Message} {s : Storage}
      {effects : Effects} :
      sys.unsent (.reader link) = [] → sys.inFlight link = msg :: rest →
      (sys.storage link.target).ProcessIncoming ⟨uid link.peer, 0x0300⟩ msg = some (s, effects) →
      Carry sys { sys with
        storage := Function.update sys.storage link.target s
        inFlight := Function.update sys.inFlight link rest
        unsent := Function.update sys.unsent (.reader link) effects.outgoing }

/-- No node is so far behind that a new number looks earlier than its own. -/
def System.Near (sys : System ι) (name : Bytes) (s : Storage) : Prop :=
  ∀ node e e', s.find name = some e → (sys.storage node).find name = some e' →
    ¬ e.seq_num.less e'.seq_num

/-- Every name has one thread that sets it, to values that the connections carry as they are. -/
inductive System.Step : System ι → System ι → Prop
  | set {sys : System ι} {name : Bytes} {value : Value} {r : Bool} {s : Storage}
      {effects : Effects} :
      sys.unsent (ownerThread owner name) = [] →
      ((sys.storage (owner name).1).find name).isSome → value.Carried 0x0300 →
      (sys.storage (owner name).1).SetEntryValue name (some value) = some (r, s, effects) →
      sys.Near name s →
      Step sys { sys with
        storage := Function.update sys.storage (owner name).1 s
        unsent := Function.update sys.unsent (ownerThread owner name) effects.outgoing }
  | carry {sys sys' : System ι} : sys.Carry uid sys' → Step sys sys'

abbrev Run : System ι → System ι → Prop := Relation.ReflTransGen (System.Step owner uid)

end Steps

variable {ι : Type}

/-- What the nodes have to agree on. -/
def Entry.shared (e : Entry) : ℕ × Option Value × SequenceNumber :=
  (e.id, e.value.map Value.normal, e.seq_num)

/-- What a node shows under a name. -/
def System.view (sys : System ι) (name : Bytes) (node : Node ι) :
    Option (ℕ × Option Value × SequenceNumber) := ((sys.storage node).find name).map Entry.shared

/-- All nodes have the same entries, with the ids that the server gave, and nothing is to be
sent. -/
structure System.Start (sys : System ι) : Prop where
  sound : ∀ node, (sys.storage node).Sound
  room : ∀ node, (sys.storage node).idmap.length ≤ 0xffff
  server : ∀ node, (sys.storage node).server = true ↔ node = .server
  queue_outgoing : ∀ node, (sys.storage node).queue_outgoing = true
  same : ∀ node name, sys.view name node = sys.view name .server
  numbers : ∀ name e, (sys.storage .server).find name = some e → e.seq_num.value < 65536
  sender : ∀ link, (sys.sender link).outgoing = [] ∧ (sys.sender link).pending_outgoing = [] ∧
    (sys.sender link).pending_update = []
  inFlight : ∀ link, sys.inFlight link = []
  unsent : ∀ thread, sys.unsent thread = []

/-- Nothing is to be sent and nothing to be read. -/
structure System.Quiet (sys : System ι) : Prop where
  sender : ∀ link, (sys.sender link).outgoing = [] ∧ (sys.sender link).pending_outgoing = []
  inFlight : ∀ link, sys.inFlight link = []
  unsent : ∀ thread, sys.unsent thread = []

end SparxRobot.NetworkTables
