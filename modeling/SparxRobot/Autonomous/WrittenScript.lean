import Mathlib.Data.List.ReduceOption
import SparxRobot.Autonomous.CSVReader
import SparxRobot.Java.Written

/-! A script that is written to a file is read back. -/
namespace SparxRobot.Autonomous
open Java (Eol written OneLine)

def rowText (row : List Int32) : Line := [','].intercalate (row.map Java.toString)

/-- The lines of a script: the first row, and then rows and empty lines. -/
def scriptLines (first : List Int32) (rest : List (Option (List Int32))) : List Line :=
  rowText first :: rest.map fun row => row.elim [] rowText

section Rows

variable {row : List Int32}

theorem split_rowText (h : row ≠ []) : Java.split ',' (rowText row) = row.map Java.toString := by
  apply Java.split_intercalate
  · simpa using h
  · intro part hpart
    obtain ⟨n, -, rfl⟩ := List.mem_map.mp hpart
    refine ⟨fun hcomma => ?_, Java.toString_ne_nil n⟩
    rcases Java.mem_toString hcomma with hminus | hdigit
    · exact absurd hminus (by decide)
    · exact absurd hdigit (by decide)

theorem parseRow_toString : parseRow (row.map Java.toString) = (row, true) := by
  induction row with
  | nil => rfl
  | cons n row ih => simp [parseRow, Java.parseInt_toString, ih]

theorem readable_rowText (h : row ≠ []) : Readable (rowText row) := by
  rw [Readable, split_rowText h, ← parseRow_snd, parseRow_toString]

theorem rowOf_rowText (h : row ≠ []) : rowOf (rowText row) = row := by
  rw [rowOf, split_rowText h, parseRow_toString]

theorem rowText_ne_nil (h : row ≠ []) : rowText row ≠ [] := by
  intro hnil
  have hsplit := split_rowText h
  rw [hnil] at hsplit
  cases row with
  | nil => exact h rfl
  | cons n row =>
    have hhead : [] = Java.toString n := (List.cons.inj hsplit).1
    exact Java.toString_ne_nil n hhead.symm

theorem oneLine_rowText : OneLine (rowText row) := by
  have hchars : ∀ c ∈ rowText row, c = ',' ∨ c = '-' ∨ c.isDigit = true := by
    intro c hc
    rcases Java.mem_intercalate hc with hcomma | ⟨part, hpart, hc⟩
    · exact .inl (by simpa using hcomma)
    · obtain ⟨n, -, rfl⟩ := List.mem_map.mp hpart
      exact .inr (Java.mem_toString hc)
  constructor <;> intro hc <;> rcases hchars _ hc with h | h | h <;> exact absurd h (by decide)

end Rows

section Layout

variable {first : List Int32} {rest : List (Option (List Int32))}

theorem filled_scriptLines (hfirst : first ≠ []) (hrest : ∀ row ∈ rest.reduceOption, row ≠ []) :
    filled (scriptLines first rest) = (first :: rest.reduceOption).map rowText := by
  unfold scriptLines
  rw [filled_cons (rowText_ne_nil hfirst), List.map_cons]
  congr 1
  induction rest with
  | nil => rfl
  | cons row rest ih =>
    cases row with
    | none =>
      rw [List.reduceOption_cons_of_none] at hrest ⊢
      rw [List.map_cons, Option.elim_none, filled_cons_nil, ih hrest]
    | some row =>
      rw [List.reduceOption_cons_of_some] at hrest ⊢
      obtain ⟨hrow, hrest⟩ := List.forall_mem_cons.mp hrest
      rw [List.map_cons, Option.elim_some, filled_cons (rowText_ne_nil hrow), ih hrest,
        List.map_cons]

theorem oneLine_scriptLines : ∀ l ∈ scriptLines first rest, OneLine l := by
  have hempty : OneLine [] := ⟨List.not_mem_nil, List.not_mem_nil⟩
  intro l hl
  rcases List.mem_cons.mp hl with rfl | hl
  · exact oneLine_rowText
  · obtain ⟨row, -, rfl⟩ := List.mem_map.mp hl
    cases row with
    | none => exact hempty
    | some row => exact oneLine_rowText

/-- The first row is read back as the first line, and no line that is not empty is left out. -/
theorem lines_script (eol : Eol) (terminated : Bool) (hfirst : first ≠ []) :
    ∃ reader, Java.lines (written eol terminated (scriptLines first rest)) =
        rowText first :: reader ∧
      filled (rowText first :: reader) = filled (scriptLines first rest) := by
  rcases Java.lines_written eol terminated oneLine_scriptLines with hall | hlast
  · exact ⟨_, hall, rfl⟩
  · cases hread : Java.lines (written eol terminated (scriptLines first rest)) with
    | nil =>
      rw [hread] at hlast
      exact absurd (List.cons.inj hlast).1 (rowText_ne_nil hfirst)
    | cons line reader =>
      rw [hread] at hlast
      obtain rfl : rowText first = line := (List.cons.inj hlast).1
      refine ⟨reader, rfl, ?_⟩
      rw [hlast, filled, filled, List.filter_append]
      simp

/-- A script of rows that are not empty, with empty lines wherever after the first line, is
read as its rows in order. -/
theorem readIntCSV_written (eol : Eol) (terminated : Bool) (hfirst : first ≠ [])
    (hrest : ∀ row ∈ rest.reduceOption, row ≠ []) :
    Returns (written eol terminated (scriptLines first rest))
      ((first :: rest.reduceOption).map some) := by
  obtain ⟨reader, htext, hfilled⟩ := lines_script eol terminated hfirst
  rw [filled_scriptLines hfirst hrest] at hfilled
  have hrows : ∀ row ∈ first :: rest.reduceOption, row ≠ [] :=
    List.forall_mem_cons.mpr ⟨hfirst, hrest⟩
  have hreadable : ∀ line ∈ filled (rowText first :: reader), Readable line := by
    rw [hfilled]
    intro line hline
    obtain ⟨row, hrow, rfl⟩ := List.mem_map.mp hline
    exact readable_rowText (hrows row hrow)
  have hrowOf : ((first :: rest.reduceOption).map rowText).map rowOf =
      first :: rest.reduceOption := by
    rw [List.map_map]
    exact (List.map_congr_left fun row hrow => rowOf_rowText (hrows row hrow)).trans
      (List.map_id _)
  have hreturns := returns_filled htext (rowText_ne_nil hfirst) hreadable
  rwa [hfilled, hrowOf] at hreturns

theorem blankLine_skipped : Returns "1,-2\n\n3\n".toList [some [1, -2], some [3]] := by
  have htext : written .lf true (scriptLines [1, -2] [none, some [3]]) = "1,-2\n\n3\n".toList := by
    decide
  have hrest : ∀ row ∈ [none, some [(3 : Int32)]].reduceOption, row ≠ [] := by decide
  have hreturns := readIntCSV_written .lf true (List.cons_ne_nil 1 [-2]) hrest
  rwa [htext] at hreturns

end Layout

end SparxRobot.Autonomous
