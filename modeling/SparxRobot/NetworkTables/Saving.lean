import SparxRobot.NetworkTables.Dirty

/-! A server that saves its persistent entries from time to time, and that can end at any time and
start again with what is in its file. -/
namespace SparxRobot.NetworkTables

namespace Storage

/-- The error, if there is one. -/
def LoadPersistentFilename (s : Storage) (text : DoubleText) (file : Option Bytes) :
    Option (Option String × Storage × Effects × List (ℕ × String)) :=
  match file with
  | none => some (some "could not open file", s, {}, [])
  | some file => (s.LoadPersistentFile text file).map fun (ok, s, effects, warnings) =>
      (if ok then none else some "error reading file", s, effects, warnings)

end Storage

open Storage

/-- A server with its file, and the backup. `writing` is what a save has taken and has not yet
moved to the file, `moved` whether it has made the file the backup. -/
structure Saver where
  storage : Storage := {}
  file : Option Bytes := none
  backup : Option Bytes := none
  writing : Option Bytes := none
  moved : Bool := false

/-- The mutex is free between the steps of a save. A save that fails marks the storage again. No
file but the server's is loaded or saved: a save to another one clears the mark, too. -/
inductive Saver.Next (text : DoubleText) : Saver → Saver → Prop
  | operation {n : Saver} {s' : Storage} (op : Operation) (hop : op.apply n.storage = some s')
      (hmarks : op.Marks n.storage) (hroom : s'.idmap.length ≤ 0xffff) :
      Next text n { n with storage := s' }
  | taken {n : Saver} {s' : Storage} {saved : Bytes} (hidle : n.writing = none)
      (hsave : n.storage.SavePersistent text true = (some saved, s'))
      (hkeep : n.storage.AllKeepable) :
      Next text n { n with storage := s', writing := some saved, moved := false }
  | renamed {n : Saver} {saved : Bytes} (hwriting : n.writing = some saved) (hmoved : ¬ n.moved) :
      Next text n { n with file := none, backup := n.file, moved := true }
  | written {n : Saver} {saved : Bytes} (hwriting : n.writing = some saved) :
      Next text n { n with file := some saved, writing := none }
  | failed {n : Saver} {saved : Bytes} (hwriting : n.writing = some saved) :
      Next text n { n with storage := n.storage.dirty true, writing := none }
  | restored {n : Saver} {saved : Bytes} (hwriting : n.writing = some saved) (hmoved : n.moved) :
      Next text n ⟨n.storage.dirty true, n.backup, none, none, n.moved⟩
  | restarted {n : Saver} {error : Option String} {s' : Storage} {effects : Effects}
      {warnings : List (ℕ × String)}
      (hload : ({} : Storage).LoadPersistentFilename text n.file =
        some (error, s', effects, warnings))
      (hroom : s'.idmap.length ≤ 0xffff) :
      Next text n { n with storage := s', writing := none }

section Contents

variable {text : DoubleText} {file : Option Bytes} {contents : Bytes → Option Value}
  {s s' : Storage} {name : Bytes}

/-- What a file was saved with. -/
inductive SavedAs (text : DoubleText) : Option Bytes → (Bytes → Option Value) → Prop
  | missing : SavedAs text none fun _ => none
  | saved {t : Storage} (htidy : t.Tidy) (hkeep : t.AllKeepable) :
      SavedAs text (some (SavePersistentImpl text t.persistentEntries))
        fun name => (t.find name).bind Entry.savedValue

theorem reread_type (text : DoubleText) (v : Value) : (reread text v).type = v.type := by
  cases v <;> rfl

/-- What loading complains of: only of a file that is missing. -/
def openError (file : Option Bytes) : Option String :=
  match file with
  | none => some "could not open file"
  | some _ => none

/-- A file gives what it was saved with, and only that. -/
theorem SavedAs.load (h : SavedAs text file contents) : ∃ s' effects,
    ({} : Storage).LoadPersistentFilename text file = some (openError file, s', effects, []) ∧
      ∀ name, s'.GetEntryValue name = (contents name).map (reread text) ∧
        ∀ entry, s'.find name = some entry → entry.IsPersistent := by
  cases h with
  | missing =>
    refine ⟨_, _, rfl, fun name => ⟨rfl, fun entry hentry => ?_⟩⟩
    cases hentry
  | saved htidy hkeep =>
    obtain ⟨s', effects, hload, hloaded⟩ := @load_saved _ {} text htidy hkeep rfl
    refine ⟨s', effects, ?_, hloaded⟩
    rw [LoadPersistentFilename, hload]
    rfl

theorem SavedAs.backed (h : SavedAs text file contents)
    (hvalue : s.GetEntryValue name = (contents name).map (reread text))
    (hpersistent : ∀ entry, s.find name = some entry → entry.IsPersistent) :
    s.backed name = ((contents name).map (reread text)).map Value.normal := by
  have hsaved : ∀ v, contents name = some v → (typeText v.type).isSome := by
    intro v hv
    cases h with
    | missing => cases hv
    | saved htidy hkeep =>
      obtain ⟨e, -, hsaved⟩ := Option.bind_eq_some_iff.mp hv
      unfold Entry.savedValue at hsaved
      split at hsaved
      · exact (Option.filter_eq_some_iff.mp hsaved).2
      · cases hsaved
  rw [← hvalue, Storage.backed]
  unfold GetEntryValue at hvalue ⊢
  cases hfind : s.find name with
  | none => rfl
  | some e =>
    rw [hfind, Option.bind_some] at hvalue
    rw [Option.bind_some, Option.bind_some, Entry.savedValue, if_pos (hpersistent e hfind), hvalue]
    cases hcontents : contents name with
    | none => rfl
    | some v =>
      rw [Option.map_some, Option.filter_some, reread_type, if_pos (hsaved v hcontents)]

end Contents

section Run

variable {text : DoubleText} {n n' : Saver}

/-- A storage that is not marked has what the file will give, or gave. -/
structure Saver.Current (text : DoubleText) (n : Saver) : Prop where
  serves : n.storage.Serves
  file : ∃ contents, SavedAs text n.file contents
  backup : ∃ contents, SavedAs text n.backup contents
  writing : ∀ saved, n.writing = some saved → ∃ contents, SavedAs text (some saved) contents
  clean : n.storage.persistent_dirty = false → ∃ contents,
    SavedAs text (n.writing.or n.file) contents ∧
    ∀ name, n.storage.backed name = (contents name).map Value.normal ∨
      n.storage.backed name = ((contents name).map (reread text)).map Value.normal

theorem persistent_dirty_put (s : Storage) (entry : Entry) :
    (s.put entry).persistent_dirty = s.persistent_dirty := by
  unfold put
  split <;> rfl

theorem persistent_dirty_loadPersistent (s : Storage) (values : List (Bytes × Value)) :
    (s.LoadPersistent values).1.persistent_dirty = s.persistent_dirty := by
  rw [loadPersistent_storage]
  induction values generalizing s with
  | nil => rfl
  | cons p values ih =>
    obtain ⟨entry, idmap, hload, -⟩ := load_eq s p.1 p.2
    rw [List.foldl_cons, ih, hload, persistent_dirty_put]

/-- A server that starts is sound and not marked. -/
theorem serves_loaded {file : Option Bytes} {error : Option String} {s' : Storage}
    {effects : Effects} {warnings : List (ℕ × String)}
    (hload : ({} : Storage).LoadPersistentFilename text file = some (error, s', effects, warnings))
    (hroom : s'.idmap.length ≤ 0xffff) : s'.Serves ∧ s'.persistent_dirty = false := by
  cases file with
  | none =>
    cases hload
    exact ⟨serves_start, rfl⟩
  | some file =>
    obtain ⟨⟨ok, s, r⟩, hread, heq⟩ := Option.map_eq_some_iff.mp hload
    obtain rfl : s = s' := (Prod.mk.inj (Prod.mk.inj heq).2).1
    obtain ⟨⟨ok', values, w⟩, -, heq'⟩ := Option.map_eq_some_iff.mp hread
    dsimp only at heq'
    split at heq'
    · obtain rfl := (Prod.mk.inj (Prod.mk.inj heq').2).1
      exact ⟨serves_start, rfl⟩
    · obtain rfl := (Prod.mk.inj (Prod.mk.inj heq').2).1
      exact ⟨serves_start.step (sound_loadPersistent serves_start values hroom) hroom,
        persistent_dirty_loadPersistent {} values⟩

theorem Storage.Serves.marked {s : Storage} (h : s.Serves) (dirty : Bool) :
    Serves { s with persistent_dirty := dirty } :=
  ⟨⟨h.names, h.addresses, h.allocated, h.values, h.ids, h.pointers⟩, h.server, h.room⟩

/-- A save takes what is persistent and clears the mark. -/
theorem savePersistent_eq {s s' : Storage} {periodic : Bool} {saved : Bytes}
    (hsave : s.SavePersistent text periodic = (some saved, s')) :
    saved = SavePersistentImpl text s.persistentEntries ∧
      s' = { s with persistent_dirty := false } := by
  have hget : s.GetPersistentEntries periodic = (none, s) ∨ s.GetPersistentEntries periodic =
      (some s.persistentEntries, { s with persistent_dirty := false }) := by
    unfold GetPersistentEntries
    split
    · exact .inl rfl
    · exact .inr rfl
  rw [SavePersistent] at hsave
  obtain hget | hget := hget
  · rw [hget] at hsave
    cases hsave
  · rw [hget] at hsave
    obtain ⟨hsaved, rfl⟩ := Prod.mk.inj hsave
    exact ⟨(Option.some.inj hsaved).symm, rfl⟩

theorem Saver.Current.next (h : n.Current text) (hnext : Saver.Next text n n') :
    n'.Current text := by
  have hmarked : (n.storage.dirty true).Serves := h.serves.marked _
  have hnot : (n.storage.dirty true).persistent_dirty ≠ false := by
    show (n.storage.persistent_dirty || true) ≠ false
    rw [Bool.or_true]
    exact Bool.noConfusion
  have hnone : ∀ saved, (none : Option Bytes) = some saved →
      ∃ contents, SavedAs text (some saved) contents := fun saved heq => by cases heq
  cases hnext with
  | operation op hop hmarks hroom =>
    have hcovers := covers_apply h.serves op hmarks hop
    refine ⟨(step_of_next h.serves ⟨op, hop, hroom⟩).2, h.file, h.backup, h.writing,
      fun hclean => ?_⟩
    -- A mark stays, so there was none before the operation either.
    have hbefore : n.storage.persistent_dirty = false := by
      rw [← Bool.not_eq_true]
      intro hdirty
      rw [hcovers.dirty hdirty] at hclean
      cases hclean
    obtain ⟨contents, hsaved, hsame⟩ := h.clean hbefore
    refine ⟨contents, hsaved, fun name => ?_⟩
    rw [hcovers.backed hclean]
    exact hsame name
  | taken hidle hsave hkeep =>
    obtain ⟨rfl, rfl⟩ := savePersistent_eq hsave
    have hsaved := @SavedAs.saved text n.storage h.serves.tidy hkeep
    refine ⟨h.serves.marked false, h.file, h.backup, fun saved heq => ?_,
      fun _ => ⟨_, hsaved, fun name => .inl rfl⟩⟩
    obtain rfl := Option.some.inj heq
    exact ⟨_, hsaved⟩
  | renamed hwriting hmoved =>
    refine ⟨h.serves, ⟨_, .missing⟩, h.file, h.writing, fun hclean => ?_⟩
    obtain ⟨contents, hsaved, hsame⟩ := h.clean hclean
    refine ⟨contents, ?_, hsame⟩
    rw [hwriting, Option.some_or] at hsaved ⊢
    exact hsaved
  | written hwriting =>
    refine ⟨h.serves, h.writing _ hwriting, h.backup, hnone, fun hclean => ?_⟩
    obtain ⟨contents, hsaved, hsame⟩ := h.clean hclean
    rw [hwriting, Option.some_or] at hsaved
    exact ⟨contents, hsaved, hsame⟩
  | failed hwriting =>
    exact ⟨hmarked, h.file, h.backup, hnone, fun hclean => absurd hclean hnot⟩
  | restored hwriting hmoved =>
    exact ⟨hmarked, h.backup, ⟨_, .missing⟩, hnone, fun hclean => absurd hclean hnot⟩
  | restarted hload hroom =>
    obtain ⟨contents, hsaved⟩ := h.file
    obtain ⟨s', effects, hload', hloaded⟩ := hsaved.load
    rw [hload] at hload'
    cases hload'
    refine ⟨(serves_loaded hload hroom).1, ⟨contents, hsaved⟩, h.backup, hnone, fun _ => ?_⟩
    exact ⟨contents, hsaved, fun name => .inr (hsaved.backed (hloaded name).1 (hloaded name).2)⟩

end Run

end SparxRobot.NetworkTables
