import Mathlib.Data.List.Sort
import SparxRobot.NetworkTables.Joining
import SparxRobot.NetworkTables.PersistentFile
import SparxRobot.NetworkTables.Server

/-! A storage that is saved, and another one that loads the file. -/
namespace SparxRobot.NetworkTables

namespace Storage

/-- What a storage saves, in the order of the names. -/
def persistentEntries (s : Storage) : List (Bytes × Option Value) :=
  ((s.entries.filter Entry.IsPersistent).map fun entry => (entry.name, entry.value)).mergeSort
    fun a b => a.1 ≤ b.1

/-- A periodic call takes nothing if nothing has changed since the entries were taken. -/
def GetPersistentEntries (s : Storage) (periodic : Bool) :
    Option (List (Bytes × Option Value)) × Storage :=
  if periodic ∧ !s.persistent_dirty then (none, s)
  else (some s.persistentEntries, { s with persistent_dirty := false })

/-- The file, unless it stays as it is. -/
def SavePersistent (s : Storage) (text : DoubleText) (periodic : Bool) : Option Bytes × Storage :=
  let (entries, s) := s.GetPersistentEntries periodic
  (entries.map (SavePersistentImpl text), s)

/-- Nothing is stored of a file without the header. -/
def LoadPersistentFile (s : Storage) (text : DoubleText) (file : Bytes) :
    Option (Bool × Storage × Effects × List (ℕ × String)) :=
  (readPersistent text file).map fun (ok, values, warnings) =>
    if !ok then (false, s, {}, warnings)
    else (true, (s.LoadPersistent values).1, (s.LoadPersistent values).2, warnings)

section Loading

variable {s : Storage} {name : Bytes} {value : Value}

/-- A loaded entry is put where it was, or behind the others. -/
theorem load_eq (s : Storage) (name : Bytes) (value : Value) : ∃ entry idmap,
    (s.load name value).1 = { s with idmap := idmap }.put entry ∧
      entry.address = (s.entryAt name).address ∧ entry.name = name ∧ entry.value = some value ∧
      entry.IsPersistent := by
  obtain ⟨entry, n, hat, hvalue, hpersistent, heq⟩ := load_put s name value
  obtain ⟨idmap, hidmap⟩ : ∃ idmap, (s.assignId entry).1 = { s with idmap := idmap } := by
    unfold assignId
    split
    · exact ⟨_, rfl⟩
    · exact ⟨s.idmap, rfl⟩
  refine ⟨_, idmap, by rw [heq, hidmap], ?_, ?_, ?_, ?_⟩
  · rw [assignId_address, hat.address]
  · rw [assignId_name, hat.name]
  · rw [assignId_value, hvalue]
  · rwa [Entry.IsPersistent, assignId_flags]

theorem find_load (h : Tidy s) (name : Bytes) (value : Value) : Tidy (s.load name value).1 ∧
    ∃ entry, entry.value = some value ∧ entry.IsPersistent ∧
      ∀ name', (s.load name value).1.find name' =
        if name' = name then some entry else s.find name' := by
  obtain ⟨entry, idmap, hload, haddress, hname, hvalue, hpersistent⟩ := load_eq s name value
  have htidy : Tidy { s with idmap := idmap } := ⟨h.names, h.addresses, h.allocated, h.values⟩
  have hat : entry.address = ({ s with idmap := idmap }.entryAt entry.name).address := by
    rw [haddress, hname]
    rfl
  have hsome : entry.value ≠ none := by
    rw [hvalue]
    exact Option.some_ne_none value
  rw [hload]
  refine ⟨htidy.put hat hsome, entry, hvalue, hpersistent, fun name' => ?_⟩
  rw [htidy.find_put hat hsome, hname]
  rfl

/-- What a storage has when a list was loaded in which no name has two values. -/
theorem find_loadPersistent {values : List (Bytes × Value)} (h : Tidy s)
    (hsame : ∀ p ∈ values, ∀ q ∈ values, p.1 = q.1 → p.2 = q.2) :
    (∀ p ∈ values, ∃ entry, (s.LoadPersistent values).1.find p.1 = some entry ∧
      entry.value = some p.2 ∧ entry.IsPersistent) ∧
    ∀ name, (∀ p ∈ values, p.1 ≠ name) → (s.LoadPersistent values).1.find name = s.find name := by
  rw [loadPersistent_storage]
  induction values generalizing s with
  | nil => exact ⟨List.forall_mem_nil _, fun _ _ => rfl⟩
  | cons p values ih =>
    obtain ⟨htidy, entry, hvalue, hpersistent, hfind⟩ := find_load h p.1 p.2
    obtain ⟨hloaded, hothers⟩ := ih htidy fun q hq r hr => hsame q (.tail _ hq) r (.tail _ hr)
    rw [List.foldl_cons]
    refine ⟨fun q hq => ?_, fun name hname => ?_⟩
    · by_cases hlater : ∃ r ∈ values, r.1 = q.1
      · obtain ⟨r, hr, heq⟩ := hlater
        obtain ⟨entry', hfind', hvalue', hpersistent'⟩ := hloaded r hr
        rw [heq] at hfind'
        rw [hsame r (.tail _ hr) q hq heq] at hvalue'
        exact ⟨entry', hfind', hvalue', hpersistent'⟩
      · obtain rfl | hq' := List.mem_cons.mp hq
        · refine ⟨entry, ?_, hvalue, hpersistent⟩
          rw [hothers q.1 fun r hr heq => hlater ⟨r, hr, heq⟩, hfind, if_pos rfl]
        · exact absurd ⟨q, hq', rfl⟩ hlater
    · obtain ⟨hne, hname⟩ := List.forall_mem_cons.mp hname
      rw [hothers name hname, hfind, if_neg (Ne.symm hne)]

end Loading

end Storage

/-- The value under which an entry is in the file. -/
def Entry.savedValue (e : Entry) : Option Value :=
  if e.IsPersistent then e.value.filter fun v => (typeText v.type).isSome else none

namespace Storage

section Saving

variable {s new : Storage} {text : DoubleText}

/-- The names and the strings of what is saved can be read again. -/
def AllKeepable (s : Storage) : Prop :=
  ∀ e ∈ s.entries, ∀ v, e.savedValue = some v → Keepable (e.name, v)

theorem mem_saved {p : Bytes × Value} : p ∈ saved s.persistentEntries ↔
    ∃ e ∈ s.entries, e.name = p.1 ∧ e.savedValue = some p.2 := by
  unfold saved persistentEntries Entry.savedValue
  rw [List.mem_filterMap]
  constructor
  · rintro ⟨q, hq, heq⟩
    rw [List.mem_mergeSort, List.mem_map] at hq
    obtain ⟨e, he, rfl⟩ := hq
    obtain ⟨hmem, hpersistent⟩ := List.mem_filter.mp he
    obtain ⟨v, hv, rfl⟩ := Option.map_eq_some_iff.mp heq
    exact ⟨e, hmem, rfl, (if_pos hpersistent).trans hv⟩
  · rintro ⟨e, he, hname, hvalue⟩
    split at hvalue
    · next hpersistent =>
      refine ⟨(e.name, e.value), ?_, ?_⟩
      · rw [List.mem_mergeSort, List.mem_map]
        exact ⟨e, List.mem_filter.mpr ⟨he, hpersistent⟩, rfl⟩
      · dsimp only
        rw [hvalue, hname, Option.map_some]
    · cases hvalue

/-- A storage without entries that loads the file of another one has the persistent entries of
that, doubles to their written digits. -/
theorem load_saved (h : Tidy s) (hkeep : s.AllKeepable) (hnew : new.entries = []) :
    ∃ s' effects, new.LoadPersistentFile text (SavePersistentImpl text s.persistentEntries) =
        some (true, s', effects, []) ∧ ∀ name,
      s'.GetEntryValue name = ((s.find name).bind Entry.savedValue).map (reread text) ∧
        ∀ entry, s'.find name = some entry → entry.IsPersistent := by
  have hlines := (@readLines_written text 2 s.persistentEntries).mpr fun p hp => by
    obtain ⟨e, he, hname, hvalue⟩ := mem_saved.mp hp
    have hkeepable := hkeep e he p.2 hvalue
    rwa [hname] at hkeepable
  have htidy : Tidy new := by
    have hnone : ∀ e, e ∉ new.entries := fun e he => by
      rw [hnew] at he
      exact List.not_mem_nil he
    exact ⟨fun e he => absurd he (hnone e), fun e he => absurd he (hnone e),
      fun e he => absurd he (hnone e), fun e he => absurd he (hnone e)⟩
  have hempty : ∀ name, new.find name = none := by
    intro name
    rw [find, hnew]
    rfl
  have hsame : ∀ p ∈ (saved s.persistentEntries).map (fun p => (p.1, reread text p.2)),
      ∀ q ∈ (saved s.persistentEntries).map (fun p => (p.1, reread text p.2)),
        p.1 = q.1 → p.2 = q.2 := by
    intro p hp q hq heq
    obtain ⟨p, hp', rfl⟩ := List.mem_map.mp hp
    obtain ⟨q, hq', rfl⟩ := List.mem_map.mp hq
    obtain ⟨e, he, hname, hvalue⟩ := mem_saved.mp hp'
    obtain ⟨e', he', hname', hvalue'⟩ := mem_saved.mp hq'
    obtain rfl := h.names e he e' he' (hname.trans (heq.trans hname'.symm))
    exact congrArg (reread text) (Option.some.inj (hvalue.symm.trans hvalue'))
  obtain ⟨hloaded, hothers⟩ := find_loadPersistent htidy hsame
  refine ⟨_, _, by rw [LoadPersistentFile, readPersistent_saved, hlines]; rfl, fun name => ?_⟩
  cases hfind : (s.find name).bind Entry.savedValue with
  | some v =>
    obtain ⟨e, he, hvalue⟩ := Option.bind_eq_some_iff.mp hfind
    obtain ⟨hmem, rfl⟩ := mem_of_find he
    obtain ⟨entry, hentry, hentryvalue, hpersistent⟩ := hloaded (e.name, reread text v)
      (List.mem_map.mpr ⟨(e.name, v), mem_saved.mpr ⟨e, hmem, rfl, hvalue⟩, rfl⟩)
    refine ⟨?_, fun entry' hentry' => ?_⟩
    · rw [GetEntryValue, hentry, Option.bind_some, hentryvalue]
      rfl
    · rw [hentry] at hentry'
      rwa [← Option.some.inj hentry']
  | none =>
    have hnone := hothers name fun p hp hname => by
      obtain ⟨p, hp', rfl⟩ := List.mem_map.mp hp
      obtain ⟨e, he, hename, hvalue⟩ := mem_saved.mp hp'
      have hsome := h.find_iff.mpr ⟨he, hename.trans hname⟩
      rw [hsome, Option.bind_some, hvalue] at hfind
      cases hfind
    rw [hempty] at hnone
    refine ⟨?_, fun entry hentry => ?_⟩
    · rw [GetEntryValue, hnone]
      rfl
    · rw [hnone] at hentry
      cases hentry

end Saving

end Storage

end SparxRobot.NetworkTables
