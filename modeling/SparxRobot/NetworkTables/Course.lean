import Mathlib.Data.List.Basic
import SparxRobot.NetworkTables.Standing
import SparxRobot.Replication.Trace
import SparxRobot.Replication.Trail

/-! The course that the values of a name take: from the node that sets them over the server to the
other clients. -/
namespace SparxRobot.NetworkTables
open Message NetworkConnection Storage

section Traffic

variable {ι : Type} (sys : System ι) (id : ℕ)

/-- What is on the way over a link about an id, the oldest first. -/
def System.toward (link : Link ι) : List Message :=
  (sys.inFlight link).filter (concerns id) ++
    (those (concerns id) (sys.sender link).outgoing.flatten ++
      those (concerns id) (sys.sender link).pending_outgoing)

/-- What a thread has to queue about an id. -/
def System.about (thread : Thread ι) : List Message :=
  ((sys.unsent thread).map (·.msg)).filter (concerns id)

/-- The links that the values of a name take which is set at the root. -/
def Along (root : Node ι) : Link ι → Prop
  | .up i => root = .client i
  | .down i => root ≠ .client i

variable (owner : Bytes → Node ι × ℕ) (name : Bytes)

/-- The thread that queues the values on a link that they take: the server sends on what it
reads. -/
def feeder : Link ι → Thread ι
  | .up _ => ownerThread owner name
  | .down _ => match (owner name).1 with
      | .server => ownerThread owner name
      | .client i => .reader (.up i)

def Feeds (thread : Thread ι) : Prop := thread = ownerThread owner name ∨
  ∃ i, (owner name).1 = .client i ∧ thread = .reader (.up i)

end Traffic

section Routes

variable {ι : Type} {owner : Bytes → Node ι × ℕ} {name : Bytes} {uid : ι → ℕ} {thread : Thread ι}
  {o : Outgoing} {link link' : Link ι}

/-- Whoever queues the values of a name does it on the links that they take. -/
theorem sends_iff (huid : Function.Injective uid) (hfeeds : Feeds owner name thread)
    (ho : o.except = thread.except uid) : Sends uid thread o link ↔
      Along (owner name).1 link ∧ feeder owner name link = thread := by
  unfold Sends
  rw [ho]
  obtain rfl | ⟨i, hroot, rfl⟩ := hfeeds
  · cases hroot : (owner name).1 <;> cases link <;>
      simp [Link.source, Thread.node, Thread.except, Along, feeder, ownerThread, hroot, eq_comm]
  · cases link <;> simp [Link.source, Link.target, Link.peer, Thread.node, Thread.except, Along,
      feeder, ownerThread, hroot, huid.eq_iff]

theorem source_ne_target : link.source ≠ link.target := by
  cases link <;> nofun

/-- What is so at the root, and carried along the links, is so at every node. -/
theorem forall_node {root : Node ι} {P : Node ι → Prop} (hroot : P root)
    (hlink : ∀ link, Along root link → P link.source → P link.target) (node : Node ι) :
    P node := by
  have hserver : P .server := by
    cases root with
    | server => exact hroot
    | client i => exact hlink (.up i) rfl hroot
  cases node with
  | server => exact hserver
  | client i =>
    by_cases heq : root = .client i
    · rwa [← heq]
    · exact hlink (.down i) heq hserver

/-- No link leads to where the values come from. -/
theorem Along.target_ne (h : Along (owner name).1 link) : link.target ≠ (owner name).1 := by
  cases link with
  | up i => rw [show (owner name).1 = .client i from h]; nofun
  | down i => exact Ne.symm h

/-- To every node leads one link. -/
theorem Along.target_inj {root : Node ι} (h : Along root link) (h' : Along root link')
    (heq : link.target = link'.target) : link = link' := by
  cases link <;> cases link' <;> simp_all [Along, Link.target]

/-- A reader feeds the links that start where its own ends. -/
theorem feeder_eq_reader_iff (h : Along (owner name).1 link) (h' : Along (owner name).1 link') :
    feeder owner name link' = .reader link ↔ link'.source = link.target := by
  cases hroot : (owner name).1 <;> cases link <;> cases link' <;>
    simp_all [Along, feeder, ownerThread, Link.source, Link.target]

theorem feeder_eq_owner_iff (h : Along (owner name).1 link) :
    feeder owner name link = ownerThread owner name ↔ link.source = (owner name).1 := by
  cases hroot : (owner name).1 <;> cases link <;>
    simp_all [Along, feeder, ownerThread, Link.source]

end Routes

/-- The values that the owner of a name has set, one after the other, when it did, and how many of
them a node has seen. -/
structure Course (ι : Type) where
  version : Node ι → ℕ
  first : SequenceNumber
  value : ℕ → Value
  was : ℕ → ℕ

namespace Course

variable {ι : Type} (course : Course ι) (id k : ℕ)

def number : SequenceNumber := SequenceNumber.next^[k] course.first

def shown : Option (ℕ × Option Value × SequenceNumber) :=
  some (id, some (course.value k).normal, course.number k)

def message : Message := entryUpdate id (course.number k).value (course.value k)

/-- A later part of the course. -/
structure Continues (root : Node ι) (course course' : Course ι) : Prop where
  version : ∀ node, course.version node ≤ course'.version node
  was : ∀ k ≤ course.version root, course'.was k = course.was k

/-- The course with one more value. -/
def push [DecidableEq ι] (root : Node ι) (value : Value) (t : ℕ) : Course ι where
  version := Function.update course.version root (course.version root + 1)
  first := course.first
  value := Function.update course.value (course.version root + 1) value
  was := Function.update course.was (course.version root + 1) t

/-- The course after a node has read a value. -/
def take [DecidableEq ι] (node : Node ι) (k : ℕ) : Course ι :=
  { course with version := Function.update course.version node k }

section Numbers

variable {course : Course ι} {k n : ℕ}

theorem number_lt (h : course.first.value < 65536) (k : ℕ) :
    (course.number k).value < 65536 := by
  rw [number, SequenceNumber.iterate_next_value h]
  omega

theorem number_add (k n : ℕ) :
    course.number (k + n) = SequenceNumber.next^[n] (course.number k) := by
  rw [number, Nat.add_comm, Function.iterate_add_apply]
  rfl

/-- Of two numbers that are near the later one is recognized. -/
theorem lessEqual_iff (h : course.first.value < 65536) (hle : n ≤ k) (hnear : k ≤ n + 32768) :
    (course.number k).lessEqual (course.number n) ↔ k = n := by
  obtain ⟨d, rfl⟩ := Nat.exists_eq_add_of_le hle
  rw [number_add, SequenceNumber.iterate_next_lessEqual (number_lt h n)]
  omega

theorem near_of_not_less (h : course.first.value < 65536) (hle : n ≤ k)
    (hnear : k ≤ n + 32769) (hless : ¬ (course.number k).less (course.number n)) :
    k ≤ n + 32768 := by
  obtain ⟨d, rfl⟩ := Nat.exists_eq_add_of_le hle
  rw [number_add, SequenceNumber.iterate_next_less (number_lt h n)] at hless
  omega

theorem Continues.refl (root : Node ι) (course : Course ι) : course.Continues root course :=
  ⟨fun _ => le_refl _, fun _ _ => rfl⟩

theorem Continues.trans {course' course'' : Course ι}
    (h : course.Continues root course') (h' : course'.Continues root course'') :
    course.Continues root course'' :=
  ⟨fun node => (h.version node).trans (h'.version node),
    fun k hk => (h'.was k (hk.trans (h.version root))).trans (h.was k hk)⟩

end Numbers

section Push

variable [DecidableEq ι] {course : Course ι} {id k t : ℕ} {root node : Node ι} {value : Value}

theorem push_version : (course.push root value t).version root = course.version root + 1 :=
  Function.update_self ..

theorem push_version_of_ne (hne : node ≠ root) :
    (course.push root value t).version node = course.version node := Function.update_of_ne hne ..

theorem push_number : (course.push root value t).number k = course.number k := rfl

theorem push_value : (course.push root value t).value (course.version root + 1) = value :=
  Function.update_self ..

theorem push_value_of_le (hk : k ≤ course.version root) :
    (course.push root value t).value k = course.value k :=
  Function.update_of_ne (Nat.lt_succ_of_le hk).ne ..

theorem push_was : (course.push root value t).was (course.version root + 1) = t :=
  Function.update_self ..

theorem push_was_of_le (hk : k ≤ course.version root) :
    (course.push root value t).was k = course.was k :=
  Function.update_of_ne (Nat.lt_succ_of_le hk).ne ..

theorem push_shown (hk : k ≤ course.version root) :
    (course.push root value t).shown id k = course.shown id k := by
  rw [shown, push_value_of_le hk, push_number, shown]

theorem push_message (hk : k ≤ course.version root) :
    (course.push root value t).message id k = course.message id k := by
  rw [message, push_value_of_le hk, push_number, message]

theorem continues_push : course.Continues root (course.push root value t) := by
  refine ⟨fun node => ?_, fun k hk => push_was_of_le hk⟩
  by_cases hne : node = root
  · rw [hne, push_version]
    exact Nat.le_succ _
  · rw [push_version_of_ne hne]

theorem take_version : (course.take node k).version node = k := Function.update_self ..

theorem take_version_of_ne {node' : Node ι} (hne : node' ≠ node) :
    (course.take node k).version node' = course.version node' := Function.update_of_ne hne ..

theorem continues_take (root : Node ι) (hle : course.version node ≤ k) :
    course.Continues root (course.take node k) := by
  refine ⟨fun node' => ?_, fun _ _ => rfl⟩
  by_cases hne : node' = node
  · rw [hne, take_version]
    exact hle
  · rw [take_version_of_ne hne]

end Push

end Course

section Tracks

variable {ι : Type} (owner : Bytes → Node ι × ℕ)

/-- At a moment of a trace: the links have the updates that the node behind them has not seen, in
their order, but for some that others followed. -/
structure Tracks (trace : ℕ → System ι) (t : ℕ) (sys : System ι) (name : Bytes) (id : ℕ)
    (course : Course ι) : Prop where
  first : course.first.value < 65536
  held : ∀ node, sys.view name node = course.shown id (course.version node)
  along : ∀ link, Along (owner name).1 link → ∃ q,
    sys.toward id link ++ sys.about id (feeder owner name link) = q.map (course.message id) ∧
      Replication.Trail (course.version link.target) q (course.version link.source)
  aside : ∀ link, ¬ Along (owner name).1 link → sys.toward id link = []
  silent : ∀ thread, sys.about id thread ≠ [] → Feeds owner name thread
  near : ∀ node, course.version (owner name).1 ≤ course.version node + 32768
  was : ∀ k ≤ course.version (owner name).1, course.was k ≤ t ∧
    (trace (course.was k)).view name (owner name).1 = course.shown id k
  order : ∀ l ≤ course.version (owner name).1, ∀ k ≤ l, course.was k ≤ course.was l

end Tracks

end SparxRobot.NetworkTables
