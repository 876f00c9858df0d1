import Mathlib.Computability.StateTransition
import SparxRobot.Java.Text

/-! Reading a script from a file: two passes over its lines, the first to count the rows and
the second to fill them. A step reads at most one line; errors of the file system are left out. -/
namespace SparxRobot.Autonomous
open StateTransition

abbrev Line := List Char

/-- An `int[][]`: a row that was not filled is null. -/
abbrev Rows := List (Option (List Int32))

inductive JavaException where
  | nullPointer | arrayIndexOutOfBounds
  deriving DecidableEq, Repr

inductive ReadResult where
  | returned (currentAuto : Rows)
  | threw (e : JavaException)
  deriving DecidableEq, Repr

/-- The loops of `readIntCSV`: the first pass is in its outer loop or in its inner one. -/
inductive CSVState where
  | counting (inner : Bool) (height : ℕ) (reader : List Line)
  | filling (i height : ℕ) (currentAuto : Rows) (reader : List Line)
  | finished (result : ReadResult)
  deriving DecidableEq, Repr

/-- A row and whether all of it was read: behind a value that is no number it stays zero. -/
def parseRow : List (List Char) → List Int32 × Bool
  | [] => ([], true)
  | value :: values =>
      match Java.parseInt value with
      | some n => (n :: (parseRow values).1, (parseRow values).2)
      | none => (List.replicate (values.length + 1) 0, false)

/-- What the handlers of exceptions do: `currentAuto[0][0] = code`, outside of any `try`. -/
def report (code : Int32) : Option Rows → ReadResult
  | none => .threw .nullPointer
  | some [] => .threw .arrayIndexOutOfBounds
  | some (none :: _) => .threw .nullPointer
  | some (some [] :: _) => .threw .arrayIndexOutOfBounds
  | some (some (_ :: row) :: rows) => .returned (some (code :: row) :: rows)

/-- `text` is what the file holds; none is a `FileNotFoundException`. -/
def openFile : Option (List Char) → CSVState
  | none => .finished (report (-1) none)
  | some text => .counting false 0 (Java.lines text)

/-- One turn of the loop that is running, or the end of it. -/
def csvStep (text : List Char) : CSVState → Option CSVState
  | .counting false height [] =>
      some (.filling 0 (height + 1) (List.replicate (height + 1) none) (Java.lines text))
  | .counting false height (_ :: reader) => some (.counting true height reader)
  | .counting true height [] => some (.counting false height [])
  | .counting true height (read :: reader) =>
      some (.counting true (if read ≠ [] then height + 1 else height) reader)
  | .filling i height currentAuto reader =>
      if i < height then
        match reader with
        | [] => some (.filling i height currentAuto [])
        | [] :: reader => some (.filling i height currentAuto reader)
        | line :: reader =>
            let row := parseRow (Java.split ',' line)
            let currentAuto := currentAuto.set i (some row.1)
            if row.2 then some (.filling (i + 1) height currentAuto reader)
            else some (.finished (report (-2) (some currentAuto)))
      else some (.finished (.returned currentAuto))
  | .finished _ => none

/-- The reader comes to an end. -/
def Finishes (text : List Char) : Prop := (eval (csvStep text) (openFile (some text))).Dom

/-- The reader returns these rows. -/
def Returns (text : List Char) (currentAuto : Rows) : Prop :=
  .finished (.returned currentAuto) ∈ eval (csvStep text) (openFile (some text))

/-- All of the line is numbers. -/
def Readable (line : Line) : Prop :=
  ∀ value ∈ Java.split ',' line, (Java.parseInt value).isSome = true

instance (line : Line) : Decidable (Readable line) :=
  inferInstanceAs (Decidable (∀ value ∈ Java.split ',' line, _))

def rowOf (line : Line) : List Int32 := (parseRow (Java.split ',' line)).1

/-- The lines that are not empty. -/
def filled (reader : List Line) : List Line := reader.filter (· ≠ [])

theorem parseRow_snd {values : List (List Char)} : (parseRow values).2 = true ↔
    ∀ value ∈ values, (Java.parseInt value).isSome = true := by
  induction values with
  | nil => simp [parseRow]
  | cons value values ih =>
    rw [List.forall_mem_cons]
    cases hparse : Java.parseInt value <;> simp [parseRow, hparse, ih]

section Filled

variable {line : Line} {reader : List Line}

@[simp] theorem filled_nil : filled [] = [] := rfl

@[simp] theorem filled_cons_nil : filled ([] :: reader) = filled reader := by simp [filled]

theorem filled_cons (h : line ≠ []) : filled (line :: reader) = line :: filled reader := by
  simp [filled, h]

end Filled

section Passes

variable {text : List Char} {reader : List Line} {i height : ℕ} {currentAuto : Rows}

/-- The inner loop counts the lines that are not empty, to the end of the file. -/
theorem counts : Reaches (csvStep text) (.counting true height reader)
    (.counting false (height + (filled reader).length) []) := by
  induction reader generalizing height with
  | nil => exact .single rfl
  | cons line reader ih =>
    refine .head rfl ?_
    rcases eq_or_ne line [] with rfl | hline
    · simp only [ne_eq, not_true_eq_false, ↓reduceIte, filled_cons_nil]
      exact ih
    · rw [filled_cons hline, List.length_cons, if_pos hline, add_comm (filled reader).length,
        ← add_assoc]
      exact ih

/-- The outer loop passes over the first line, whatever it holds, and one is added for it. -/
theorem counted : Reaches (csvStep text) (openFile (some text))
    (.filling 0 ((filled (Java.lines text).tail).length + 1)
      (List.replicate ((filled (Java.lines text).tail).length + 1) none) (Java.lines text)) := by
  unfold openFile
  dsimp only
  cases hlines : Java.lines text with
  | nil =>
    refine .single ?_
    simp [csvStep, hlines]
  | cons line reader =>
    refine .head rfl (counts.trans (.single ?_))
    simp [csvStep, hlines]

/-- A row is filled from a line that is not empty. -/
theorem fills (text : List Char) (currentAuto : Rows) (reader : List Line) {line : Line}
    (hi : i < height) (hline : line ≠ []) :
    csvStep text (.filling i height currentAuto (line :: reader)) =
      if Readable line then
        some (.filling (i + 1) height
          (currentAuto.set i (some (parseRow (Java.split ',' line)).1)) reader)
      else
        some (.finished (report (-2)
          (some (currentAuto.set i (some (parseRow (Java.split ',' line)).1))))) := by
  obtain ⟨c, cs, rfl⟩ := List.exists_cons_of_ne_nil hline
  simp only [csvStep, hi, ↓reduceIte]
  exact if_congr parseRow_snd rfl rfl

/-- Past the last line the loop reads null again and again. -/
theorem fill_starves (hi : i < height) :
    ¬ (eval (csvStep text) (.filling i height currentAuto [])).Dom := by
  intro hdom
  have hloop : csvStep text (.filling i height currentAuto []) =
      some (.filling i height currentAuto []) := if_pos hi
  obtain ⟨hreach, hend⟩ := mem_eval.mp (Part.get_mem hdom)
  have hstays : ∀ s, Reaches (csvStep text) (.filling i height currentAuto []) s →
      s = .filling i height currentAuto [] := by
    intro s hs
    induction hs with
    | refl => rfl
    | tail _ hstep ih =>
      rw [ih, hloop] at hstep
      exact (Option.some.inj hstep).symm
  rw [hstays _ hreach, hloop] at hend
  nomatch hend

theorem eval_finished (result : ReadResult) :
    .finished result ∈ eval (csvStep text) (.finished result) := mem_eval.mpr ⟨.refl, rfl⟩

theorem eval_step {s t : CSVState} (h : csvStep text s = some t) :
    eval (csvStep text) s = eval (csvStep text) t := reaches_eval (.single h)

/-- With all rows filled the second pass ends, whatever lines are left. -/
theorem eval_filled (reader : List Line) :
    eval (csvStep text) (.filling height height currentAuto reader) =
      eval (csvStep text) (.finished (.returned currentAuto)) :=
  eval_step (if_neg (lt_irrefl height))

theorem eval_blank (hi : i < height) :
    eval (csvStep text) (.filling i height currentAuto ([] :: reader)) =
      eval (csvStep text) (.filling i height currentAuto reader) := eval_step (if_pos hi)

/-- While the rows that are left are no fewer than the lines, the second pass ends when they
are as many, or when a line is not readable. -/
theorem fill_dom_iff (hroom : (filled reader).length ≤ height - i) (hi : i ≤ height) :
    (eval (csvStep text) (.filling i height currentAuto reader)).Dom ↔
      (filled reader).length = height - i ∨ ∃ line ∈ filled reader, ¬ Readable line := by
  have hends : ∀ result, (eval (csvStep text) (.finished result)).Dom := fun result =>
    Part.dom_iff_mem.mpr ⟨_, eval_finished result⟩
  induction reader generalizing i currentAuto with
  | nil =>
    rcases hi.eq_or_lt with rfl | hlt
    · rw [eval_filled]
      exact iff_of_true (hends _) (.inl (by simp))
    · refine iff_of_false (fill_starves hlt) ?_
      rintro (hlength | ⟨line, hline, -⟩)
      · rw [filled_nil, List.length_nil] at hlength
        omega
      · exact absurd hline (by simp)
  | cons line reader ih =>
    rcases hi.eq_or_lt with rfl | hlt
    · rw [eval_filled]
      exact iff_of_true (hends _) (.inl (by omega))
    rcases eq_or_ne line [] with rfl | hline
    · rw [eval_blank hlt, filled_cons_nil]
      rw [filled_cons_nil] at hroom
      exact ih hroom hi
    have hstep := fills text currentAuto reader hlt hline
    rw [filled_cons hline] at hroom ⊢
    rw [List.length_cons] at hroom ⊢
    by_cases hreadable : Readable line
    · have htail : (filled reader).length ≤ height - (i + 1) := by omega
      rw [if_pos hreadable] at hstep
      rw [eval_step hstep, List.exists_mem_cons_iff, or_iff_right (not_not.mpr hreadable)]
      refine (ih htail hlt).trans (or_congr_left ?_)
      omega
    · rw [if_neg hreadable] at hstep
      rw [eval_step hstep]
      exact iff_of_true (hends _) (.inr ⟨line, List.mem_cons_self, hreadable⟩)

/-- When the lines that are left are readable and as many as the rows, they become the rows. -/
theorem fill_all {n : ℕ} (read : List (List Int32)) (hlines : ∀ line ∈ filled reader, Readable line)
    (hn : (filled reader).length = n) :
    .finished (.returned ((read ++ (filled reader).map rowOf).map some)) ∈
      eval (csvStep text) (.filling read.length (read.length + n)
        (read.map some ++ List.replicate n none) reader) := by
  induction reader generalizing read n with
  | nil =>
    obtain rfl : n = 0 := hn.symm
    rw [Nat.add_zero, eval_filled]
    simpa using eval_finished _
  | cons line reader ih =>
    rcases eq_or_ne line [] with rfl | hline
    · rw [filled_cons_nil] at hlines hn ⊢
      rcases Nat.eq_zero_or_pos n with rfl | hpos
      · rw [Nat.add_zero, eval_filled, List.eq_nil_of_length_eq_zero hn]
        simpa using eval_finished _
      · rw [eval_blank (by omega)]
        exact ih read hlines hn
    · rw [filled_cons hline] at hlines hn ⊢
      obtain ⟨n, rfl⟩ : ∃ k, n = k + 1 := ⟨(filled reader).length, by simpa using hn.symm⟩
      obtain ⟨hreadable, hlines⟩ := List.forall_mem_cons.mp hlines
      have hstep := fills text (read.map some ++ List.replicate (n + 1) none) reader
        (show read.length < read.length + (n + 1) by omega) hline
      have htail := ih (read ++ [rowOf line]) hlines (by simpa using hn)
      rw [if_pos hreadable] at hstep
      rw [eval_step hstep]
      simpa [List.set_append_right, List.replicate_succ, rowOf, Nat.add_assoc, Nat.add_comm 1]
        using htail

end Passes

/-- A file whose first line is not empty, and whose lines are all readable, is read line by
line but for the empty ones. -/
theorem returns_filled {text : List Char} {first : Line} {reader : List Line}
    (htext : Java.lines text = first :: reader) (hfirst : first ≠ [])
    (hlines : ∀ line ∈ filled (first :: reader), Readable line) :
    Returns text (((filled (first :: reader)).map rowOf).map some) := by
  have hcount : (filled (first :: reader)).length = (filled reader).length + 1 := by
    rw [filled_cons hfirst, List.length_cons]
  unfold Returns
  rw [reaches_eval counted, htext]
  simpa using fill_all [] hlines hcount

/-- Reading a file comes to an end exactly when its first line is there and not empty, or some
line holds what is no number. -/
theorem finishes_iff (text : List Char) : Finishes text ↔
    (∃ first, (Java.lines text).head? = some first ∧ first ≠ []) ∨
      ∃ line ∈ filled (Java.lines text), ¬ Readable line := by
  unfold Finishes
  rw [reaches_eval counted]
  cases hlines : Java.lines text with
  | nil =>
    rw [fill_dom_iff (by simp) (by simp)]
    simp
  | cons first reader =>
    rcases eq_or_ne first [] with rfl | hfirst
    · rw [fill_dom_iff (by simp) (by simp)]
      simp
    · rw [fill_dom_iff (by simp [filled_cons hfirst]) (by simp)]
      simp [filled_cons hfirst, hfirst]

/-- The second pass waits for a row that an empty file does not have. -/
theorem emptyFile_read_for_ever : ¬ ∀ text, Finishes text := by
  intro hall
  have hdom := hall []
  unfold Finishes at hdom
  rw [reaches_eval counted] at hdom
  exact fill_starves (Nat.zero_lt_succ _) hdom

end SparxRobot.Autonomous
