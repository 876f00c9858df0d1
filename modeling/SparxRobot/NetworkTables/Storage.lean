import SparxRobot.NetworkTables.Message
import SparxRobot.NetworkTables.SequenceNumber

/-! The entries of a node. The map owns them, and the id map has pointers to them. A pointer is
the address its entry was allocated at; no other entry gets that address, and to follow a pointer
to an entry that was deleted is undefined behaviour, as it is to follow a null pointer. -/
namespace SparxRobot.NetworkTables

namespace Value

def IsNan (d : Double) : Bool := 0x7ff0000000000000 < d &&& 0x7fffffffffffffff

/-- Zero and minus zero are the same, and NaN is not even itself. -/
def doubleEqual (lhs rhs : Double) : Bool :=
  !IsNan lhs && !IsNan rhs && (lhs == rhs || lhs &&& 0x7fffffffffffffff == 0 &&
    rhs &&& 0x7fffffffffffffff == 0)

/-- `lhs == rhs`. The doubles of an array are compared as bytes. -/
def equal : Value → Value → Bool
  | double lhs, double rhs => doubleEqual lhs rhs
  | lhs, rhs => lhs = rhs

/-- Zero stands for minus zero. -/
def normal : Value → Value
  | double d => if d &&& 0x7fffffffffffffff = 0 then double 0 else double d
  | v => v

theorem normal_type (v : Value) : v.normal.type = v.type := by
  cases v with
  | double d =>
    rw [normal]
    split <;> rfl
  | _ => rfl

theorem normal_of_equal {v w : Value} (h : v.equal w) : v.normal = w.normal := by
  by_cases hdouble : ∃ d d', v = double d ∧ w = double d'
  · obtain ⟨d, d', rfl, rfl⟩ := hdouble
    simp only [equal, doubleEqual, Bool.and_eq_true, Bool.or_eq_true, beq_iff_eq] at h
    obtain ⟨-, rfl | ⟨hd, hd'⟩⟩ := h
    · rfl
    · rw [normal, normal, if_pos hd, if_pos hd']
  · have heq : v = w := by
      cases v with
      | double d =>
        cases w with
        | double d' => exact absurd ⟨d, d', rfl, rfl⟩ hdouble
        | _ => simp [equal] at h
      | _ => simpa [equal] using h
    rw [heq]

end Value

structure Entry where
  address : ℕ
  name : Bytes
  value : Option Value := none
  flags : ℕ := 0
  id : ℕ := 0xffff
  seq_num : SequenceNumber := {}
  rpc_callback : Bool := false
  rpc_call_uid : ℕ := 0
  deriving DecidableEq

def NT_PERSISTENT : ℕ := 0x01

def Entry.IsPersistent (entry : Entry) : Bool := entry.flags &&& NT_PERSISTENT ≠ 0

def Entry.makePersistent (entry : Entry) : Entry :=
  if entry.IsPersistent then entry else { entry with flags := entry.flags ||| NT_PERSISTENT }

/-- The entries are in the order in which the map is iterated over. -/
structure Storage where
  entries : List Entry := []
  idmap : List (Option ℕ) := []
  persistent_dirty : Bool := false
  server : Bool := true
  queue_outgoing : Bool := false
  local_notifiers : Bool := false
  rpc_results : List ((ℕ × ℕ) × Bytes) := []
  allocated : ℕ := 0
  deriving DecidableEq

def NT_NOTIFY_LOCAL : ℕ := 0x02
def NT_NOTIFY_NEW : ℕ := 0x04
def NT_NOTIFY_DELETE : ℕ := 0x08
def NT_NOTIFY_UPDATE : ℕ := 0x10
def NT_NOTIFY_FLAGS : ℕ := 0x20

structure Notification where
  name : Bytes
  value : Option Value
  flags : ℕ
  deriving DecidableEq

/-- A message for all connections but one. -/
structure Outgoing where
  msg : Message
  except : Option ℕ := none
  deriving DecidableEq

/-- A call for the RPC server, with the uid of the connection that its response goes to. -/
structure RpcCall where
  name : Bytes
  msg : Message
  callback : Bool
  conn_id : ℕ
  deriving DecidableEq

/-- What an operation hands on. -/
structure Effects where
  notifications : List Notification := []
  outgoing : List Outgoing := []
  calls : List RpcCall := []
  deriving DecidableEq

def Effects.append (e e' : Effects) : Effects :=
  ⟨e.notifications ++ e'.notifications, e.outgoing ++ e'.outgoing, e.calls ++ e'.calls⟩

namespace Storage

variable (s : Storage)

/-- `m_entries.find(name)` -/
def find (name : Bytes) : Option Entry := s.entries.find? fun entry => entry.name = name

/-- Follows a pointer. -/
def follow (address : ℕ) : Option Entry := s.entries.find? fun entry => entry.address = address

/-- `m_entries[name]`, with a new entry if there was none. -/
def entryAt (name : Bytes) : Entry := (s.find name).getD { address := s.allocated, name := name }

/-- Writes an entry that is in the map, or puts a new one there. -/
def put (entry : Entry) : Storage :=
  if entry.address < s.allocated then
    { s with entries := s.entries.map fun e => if e.address = entry.address then entry else e }
  else { s with entries := s.entries ++ [entry], allocated := s.allocated + 1 }

def erase (name : Bytes) : Storage :=
  { s with entries := s.entries.filter fun entry => entry.name ≠ name }

/-- `m_idmap[id] = pointer`, undefined behind the end. -/
def setId (id : ℕ) (pointer : Option ℕ) : Option Storage :=
  if id < s.idmap.length then some { s with idmap := s.idmap.set id pointer } else none

/-- `id >= m_idmap.size() || !m_idmap[id]` is no pointer. -/
def pointer (id : ℕ) : Option ℕ := (s.idmap[id]?).getD none

def dirty (condition : Bool) : Storage :=
  { s with persistent_dirty := s.persistent_dirty || condition }

/-- The server assigns an id to an entry that has none. -/
def assignId (entry : Entry) : Storage × Entry :=
  if s.server ∧ entry.id = 0xffff then
    ({ s with idmap := s.idmap ++ [some entry.address] }, { entry with id := s.idmap.length })
  else (s, entry)

def notification (name : Bytes) (value : Option Value) (flags : ℕ) : List Notification :=
  if flags &&& NT_NOTIFY_LOCAL ≠ 0 ∧ !s.local_notifiers then [] else [⟨name, value, flags⟩]

/-- A queue function that is not set throws. -/
def queue (msg : Message) (except : Option ℕ) : Option (List Outgoing) :=
  if s.queue_outgoing then some [⟨msg, except⟩] else none

def queueIfSet (msg : Message) (except : Option ℕ) : List Outgoing :=
  if s.queue_outgoing then [⟨msg, except⟩] else []

/-- The message that assigns an entry; one of null has no bytes. -/
def assignment (entry : Entry) : Option Message := do
  return .entryAssign entry.name entry.id entry.seq_num.value (← entry.value) entry.flags

def GetEntryType (id : ℕ) : Option NT_Type :=
  match s.pointer id with
  | none => some .NT_UNASSIGNED
  | some pointer => do
      let entry ← s.follow pointer
      return match entry.value with
        | none => .NT_UNASSIGNED
        | some value => value.type

def GetEntryValue (name : Bytes) : Option Value := (s.find name).bind (·.value)

def SetDefaultEntryValue (name : Bytes) (value : Option Value) : Option (Bool × Storage × Effects) :=
  match value with
  | none => some (false, s, {})
  | some value =>
      if name = [] then some (false, s, {})
      else match s.find name with
        | some entry => some (entry.value.any fun old_value => old_value.type = value.type, s, {})
        | none => do
            let (s, entry) := s.assignId { s.entryAt name with value := value }
            let msg ← assignment entry
            return (true, s.put entry, {
              notifications := s.notification name value (NT_NOTIFY_NEW ||| NT_NOTIFY_LOCAL)
              outgoing := s.queueIfSet msg none })

/-- The notifications of a value that was set here. -/
def notifyLocal (name : Bytes) (old_value : Option Value) (value : Value) (flags : ℕ) :
    List Notification :=
  match old_value with
  | none => s.notification name value (NT_NOTIFY_NEW ||| NT_NOTIFY_LOCAL)
  | some old_value =>
      if old_value.equal value then []
      else s.notification name value (NT_NOTIFY_UPDATE ||| NT_NOTIFY_LOCAL ||| flags)

/-- Whether the value of a persistent entry is another. -/
def changed (persistent : Bool) (old_value : Option Value) (value : Value) : Option Bool :=
  if persistent then old_value.map fun old_value => !old_value.equal value else some false

/-- A changed value of an entry without an id is not sent. -/
def SetEntryValue (name : Bytes) (value : Option Value) : Option (Bool × Storage × Effects) :=
  match value with
  | none => some (true, s, {})
  | some value =>
      if name = [] then some (true, s, {})
      else do
        let entry := s.entryAt name
        let old_value := entry.value
        if old_value.any fun old_value => old_value.type ≠ value.type then return (false, s, {})
        let (s, entry) := s.assignId { entry with value := value }
        let changed ← changed entry.IsPersistent old_value value
        let s := s.dirty changed
        let notifications := s.notifyLocal name old_value value 0
        match old_value with
        | none =>
            let msg ← assignment entry
            return (true, s.put entry, {
              notifications := notifications, outgoing := s.queueIfSet msg none })
        | some old_value =>
            if !s.queue_outgoing ∨ old_value.equal value then
              return (true, s.put entry, { notifications := notifications })
            let entry := { entry with seq_num := entry.seq_num.next }
            let outgoing := if entry.id = 0xffff then []
              else s.queueIfSet (.entryUpdate entry.id entry.seq_num.value value) none
            return (true, s.put entry, { notifications := notifications, outgoing := outgoing })

/-- A value of another type is an assignment, also of an entry without an id. -/
def renumber (entry : Entry) (old_value : Option Value) (value : Value) (checkId : Bool) :
    Storage × List Outgoing :=
  if !s.queue_outgoing then (s.put entry, [])
  else
    let entry := { entry with seq_num := entry.seq_num.next }
    let outgoing :=
      if old_value.all fun old_value => old_value.type ≠ value.type then
        s.queueIfSet (.entryAssign entry.name entry.id entry.seq_num.value value entry.flags) none
      else if checkId ∧ entry.id = 0xffff then []
      else s.queueIfSet (.entryUpdate entry.id entry.seq_num.value value) none
    (s.put entry, outgoing)

def SetEntryTypeValue (name : Bytes) (value : Option Value) : Storage × Effects :=
  match value with
  | none => (s, {})
  | some value =>
      if name = [] then (s, {})
      else
        let entry := s.entryAt name
        let old_value := entry.value
        let entry := { entry with value := value }
        if old_value.any fun old_value => old_value.equal value then (s.put entry, {})
        else
          let (s, entry) := s.assignId entry
          let s := s.dirty entry.IsPersistent
          let flags := if old_value.isNone then NT_NOTIFY_NEW else NT_NOTIFY_UPDATE
          let notifications := s.notification name value (flags ||| NT_NOTIFY_LOCAL)
          let (s, outgoing) := s.renumber entry old_value value true
          (s, { notifications := notifications, outgoing := outgoing })

def persistentChanged (flags flags' : ℕ) : Bool :=
  flags &&& NT_PERSISTENT ≠ flags' &&& NT_PERSISTENT

def SetEntryFlags (name : Bytes) (flags : ℕ) : Storage × Effects :=
  if name = [] then (s, {})
  else match s.find name with
    | none => (s, {})
    | some entry =>
        if entry.flags = flags then (s, {})
        else
          let s := s.dirty (persistentChanged entry.flags flags)
          let outgoing := if entry.id = 0xffff then []
            else s.queueIfSet (.flagsUpdate entry.id flags) none
          (s.put { entry with flags := flags }, {
            notifications := s.notification name entry.value (NT_NOTIFY_FLAGS ||| NT_NOTIFY_LOCAL)
            outgoing := outgoing })

def DeleteEntry (name : Bytes) : Storage × Effects :=
  match s.find name with
  | none => (s, {})
  | some entry =>
      let s := (s.dirty entry.IsPersistent).erase name
      let s := (s.setId entry.id none).getD s
      match entry.value with
      | none => (s, {})
      | some value =>
          let outgoing := if entry.id = 0xffff then []
            else s.queueIfSet (.entryDelete entry.id) none
          (s, {
            notifications := s.notification name value (NT_NOTIFY_DELETE ||| NT_NOTIFY_LOCAL)
            outgoing := outgoing })

/-- The ids of the entries that are deleted are taken from the id map. -/
def DeleteAllEntriesImpl : Option (Storage × List Notification) :=
  if s.entries = [] then some (s, [])
  else do
    let deleted := s.entries.filter fun entry => !entry.IsPersistent
    let s ← deleted.foldlM
      (fun s entry => if entry.id = 0xffff then some s else s.setId entry.id none) s
    let notifications := deleted.flatMap fun entry =>
      s.notification entry.name entry.value (NT_NOTIFY_DELETE ||| NT_NOTIFY_LOCAL)
    return ({ s with entries := s.entries.filter fun entry => entry.IsPersistent }, notifications)

def DeleteAllEntries : Option (Storage × Effects) :=
  if s.entries = [] then some (s, {})
  else do
    let (s, notifications) ← s.DeleteAllEntriesImpl
    return (s, { notifications := notifications, outgoing := s.queueIfSet .clearEntries none })

/-- One value that was read from the file. -/
def load (name : Bytes) (value : Value) : Storage × Effects :=
  let entry := s.entryAt name
  let old_value := entry.value
  let was_persist := entry.IsPersistent
  let (s, entry) := s.assignId ({ entry with value := value } : Entry).makePersistent
  let notifications :=
    s.notifyLocal name old_value value (if was_persist then 0 else NT_NOTIFY_FLAGS)
  if !s.queue_outgoing then (s.put entry, { notifications := notifications })
  else
    let entry := { entry with seq_num := entry.seq_num.next }
    let msgs : List Message :=
      if old_value.all fun old_value => old_value.type ≠ value.type then
        [.entryAssign name entry.id entry.seq_num.value value entry.flags]
      else if entry.id = 0xffff then []
      else
        (if old_value.all fun old_value => old_value.equal value then []
          else [.entryUpdate entry.id entry.seq_num.value value]) ++
        if was_persist then [] else [.flagsUpdate entry.id entry.flags]
    (s.put entry, { notifications := notifications, outgoing := msgs.map fun msg => ⟨msg, none⟩ })

/-- The values that were read from the file, in its order. -/
def LoadPersistent (values : List (Bytes × Value)) : Storage × Effects :=
  values.foldl (fun (s, effects) (name, value) =>
    let (s, effects') := s.load name value
    (s, effects.append effects')) (s, {})

def createRpc (name text : Bytes) (callback : Bool) : Storage × Effects :=
  if name = [] ∨ text = [] ∨ !s.server then (s, {})
  else
    let entry := s.entryAt name
    let old_value := entry.value
    let value := Value.rpc text
    let entry := { entry with value := value, rpc_callback := callback }
    if old_value.any fun old_value => old_value.equal value then (s.put entry, {})
    else
      let (s, entry) := s.assignId entry
      let (s, outgoing) := s.renumber entry old_value value false
      (s, { outgoing := outgoing })

/-- Without a callback there is nothing to create. -/
def CreateRpc (name text : Bytes) (callback : Bool) : Storage × Effects :=
  if !callback then (s, {}) else s.createRpc name text true

def CreatePolledRpc (name text : Bytes) : Storage × Effects := s.createRpc name text false

/-- The uid of the call, the entry's id in front of it. -/
def CallRpc (name params : Bytes) : Option (ℕ × Storage × Effects) :=
  match s.find name with
  | none => some (0, s, {})
  | some entry => do
      let value ← entry.value
      if value.type ≠ .NT_RPC then return (0, s, {})
      let uid := if entry.rpc_call_uid + 1 > 0xffff then 0 else entry.rpc_call_uid + 1
      let msg := Message.executeRpc entry.id uid params
      let combined_uid := (entry.id <<< 16) % 4294967296 ||| uid
      let s := s.put { entry with rpc_call_uid := uid }
      if s.server then return (combined_uid, s, { calls := [⟨name, msg, entry.rpc_callback, 0xffff⟩] })
      else return (combined_uid, s, { outgoing := ← s.queue msg none })

/-- The connection a message came from. -/
structure Connection where
  uid : ℕ
  proto_rev : ℕ
  deriving DecidableEq

variable (conn : Connection)

/-- A server sends on what it accepted. -/
def relay (msg : Message) : List Outgoing :=
  if s.server then s.queueIfSet msg conn.uid else []

/-- An assignment of an entry that is there. `response` is one that a client asked for. -/
def reassign (entry : Entry) (response : Bool) (id : ℕ) (name : Bytes) (seq_num : SequenceNumber)
    (value : Value) (flags : ℕ) : Option (Storage × Effects) :=
  if seq_num.less entry.seq_num then do
    if response then
      let old_value ← entry.value
      return (s, { outgoing := ← s.queue (.entryUpdate entry.id entry.seq_num.value old_value) none })
    return (s, {})
  else if name ≠ entry.name then some (s, {})
  else do
    let takeFlags := !response && 0x0300 ≤ conn.proto_rev
    let s := s.dirty (takeFlags && persistentChanged entry.flags flags)
    let notify_flags :=
      if takeFlags ∧ entry.flags ≠ flags then NT_NOTIFY_UPDATE ||| NT_NOTIFY_FLAGS
      else NT_NOTIFY_UPDATE
    let entry := { entry with flags := if takeFlags then flags else entry.flags }
    let changed ← changed entry.IsPersistent entry.value value
    let s := (s.dirty changed).put { entry with value := value, seq_num := seq_num }
    return (s, {
      notifications := s.notification name value notify_flags
      outgoing := s.relay conn (.entryAssign entry.name id seq_num.value value entry.flags) })

/-- An id of 0xffff asks the server for an id. The new entry has no number of changes yet. -/
def assignOnServer (name : Bytes) (id : ℕ) (seq_num : SequenceNumber) (value : Value) (flags : ℕ) :
    Option (Storage × Effects) :=
  if id = 0xffff then
    if (s.find name).isSome then some (s, {})
    else
      let id := s.idmap.length
      let entry := { s.entryAt name with value := value, flags := flags, id := id }
      let s := { s with idmap := s.idmap ++ [some entry.address] }
      let s := (s.dirty entry.IsPersistent).put entry
      some (s, {
        notifications := s.notification name value NT_NOTIFY_NEW
        outgoing := s.queueIfSet (.entryAssign name id entry.seq_num.value value flags) none })
  else match s.pointer id with
    | none => some (s, {})
    | some pointer => do
        let entry ← s.follow pointer
        s.reassign conn entry false id name seq_num value flags

/-- `m_idmap.resize(id + 1)` if the id is behind the end. -/
def growIdmap (id : ℕ) : Storage :=
  { s with idmap := s.idmap ++ List.replicate (id + 1 - s.idmap.length) none }

/-- A client takes the ids the server gives. Its own flags win, its value if it is newer. -/
def assignOnClient (name : Bytes) (id : ℕ) (seq_num : SequenceNumber) (value : Value) (flags : ℕ) :
    Option (Storage × Effects) :=
  if id = 0xffff then some (s, {})
  else
    let s := s.growIdmap id
    match s.pointer id with
    | some pointer => do
        let entry ← s.follow pointer
        s.reassign conn entry false id name seq_num value flags
    | none => match s.find name with
      | none => do
          let entry := { s.entryAt name with value := value, flags := flags, id := id }
          let s ← (s.put entry).setId id (some entry.address)
          return (s, { notifications := s.notification name value NT_NOTIFY_NEW })
      | some entry => do
          let entry := { entry with id := id }
          let s ← (s.put entry).setId id (some entry.address)
          let outgoing ← (if flags ≠ entry.flags then s.queue (.flagsUpdate id entry.flags) none
            else some [])
          let (s, effects) ← s.reassign conn entry true id name seq_num value flags
          return (s, { effects with outgoing := outgoing ++ effects.outgoing })

/-- What is done with the entry of an id. Messages of ids without an entry are ignored: the entry
may have been deleted. -/
def withEntry (id : ℕ) (f : Entry → Option (Storage × Effects)) : Option (Storage × Effects) :=
  match s.pointer id with
  | none => some (s, {})
  | some pointer => do f (← s.follow pointer)

def ProcessIncoming (msg : Message) : Option (Storage × Effects) :=
  match msg with
  | .entryAssign name id seq_num value flags =>
      if s.server then s.assignOnServer conn name id ⟨seq_num⟩ value flags
      else s.assignOnClient conn name id ⟨seq_num⟩ value flags
  | .entryUpdate id seq_num value => s.withEntry id fun entry =>
      if (SequenceNumber.mk seq_num).lessEqual entry.seq_num then some (s, {})
      else
        let s := (s.put { entry with value := value, seq_num := ⟨seq_num⟩ }).dirty entry.IsPersistent
        some (s, {
          notifications := s.notification entry.name value NT_NOTIFY_UPDATE
          outgoing := s.relay conn msg })
  | .flagsUpdate id flags => s.withEntry id fun entry =>
      if entry.flags = flags then some (s, {})
      else
        let s := (s.put { entry with flags := flags }).dirty (persistentChanged entry.flags flags)
        some (s, {
          notifications := s.notification entry.name entry.value NT_NOTIFY_FLAGS
          outgoing := s.relay conn msg })
  | .entryDelete id => s.withEntry id fun entry => do
      let s ← (s.dirty entry.IsPersistent).setId id none
      match s.find entry.name with
      | none => return (s, { outgoing := s.relay conn msg })
      | some entry2 =>
          let s := s.erase entry.name
          return (s, {
            notifications := s.notification entry2.name entry2.value NT_NOTIFY_DELETE
            outgoing := s.relay conn msg })
  | .clearEntries => do
      let (s, notifications) ← s.DeleteAllEntriesImpl
      return (s, { notifications := notifications, outgoing := s.relay conn msg })
  | .executeRpc id _ _ =>
      if !s.server then some (s, {})
      else s.withEntry id fun entry => do
        let value ← entry.value
        if value.type ≠ .NT_RPC then return (s, {})
        else return (s, { calls := [⟨entry.name, msg, entry.rpc_callback, conn.uid⟩] })
  | .rpcResponse id uid results =>
      if s.server then some (s, {})
      else if s.rpc_results.any fun result => result.1 = (id, uid) then some (s, {})
      else some ({ s with rpc_results := s.rpc_results ++ [((id, uid), results)] }, {})
  | _ => some (s, {})

/-- The assignments of all entries, for a new connection. -/
def GetInitialAssignments : Option (List Message) := s.entries.mapM assignment

/-- One of the assignments of a new connection; the client's own value stays when it is newer. -/
def applyInitial (new_server : Bool) (msg : Message) : Option (Storage × Effects × List Message) :=
  match msg with
  | .entryAssign name id seq_num value flags =>
      if id = 0xffff then some (s, {}, [])
      else do
        let store (entry : Entry) : Option Storage :=
          ((s.put { entry with id := id }).growIdmap id).setId id (some entry.address)
        match s.find name with
        | none =>
            let entry := { s.entryAt name with
              value := value, flags := flags, seq_num := ⟨seq_num⟩ }
            return (← store entry, { notifications := s.notification name value NT_NOTIFY_NEW }, [])
        | some entry =>
            if !new_server ∧ (SequenceNumber.mk seq_num).lessEqual entry.seq_num then
              let own ← entry.value
              return (← store entry, {}, [.entryUpdate entry.id entry.seq_num.value own])
            else
              let takeFlags := decide (0x0300 ≤ conn.proto_rev)
              let notify_flags :=
                if takeFlags ∧ entry.flags ≠ flags then NT_NOTIFY_UPDATE ||| NT_NOTIFY_FLAGS
                else NT_NOTIFY_UPDATE
              let entry := { entry with
                value := value, seq_num := ⟨seq_num⟩
                flags := if takeFlags then flags else entry.flags }
              return (← store entry, { notifications := s.notification name value notify_flags }, [])
  | _ => some (s, {}, [])

/-- The ids of the client are forgotten, those of the server taken. Returned are the requests for
the ids of the entries the server does not have. -/
def ApplyInitialAssignments (msgs : List Message) (new_server : Bool) :
    Option (List Message × Storage × Effects) :=
  if s.server then some ([], s, {})
  else do
    let s := { s with entries := s.entries.map fun entry => { entry with id := 0xffff }, idmap := [] }
    let (s, effects, update_msgs) ← msgs.foldlM (fun (s, effects, update_msgs) msg => do
      let (s, effects', update_msgs') ← s.applyInitial conn new_server msg
      return (s, Effects.append effects effects', update_msgs ++ update_msgs'))
      ((s, {}, []) : Storage × Effects × List Message)
    let out_msgs ← (s.entries.filter fun entry => entry.id = 0xffff).mapM assignment
    let queued ← update_msgs.flatMapM fun msg => s.queue msg none
    return (out_msgs, s, { effects with outgoing := effects.outgoing ++ queued })

end Storage

end SparxRobot.NetworkTables
