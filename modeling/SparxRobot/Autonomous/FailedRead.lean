import SparxRobot.Autonomous.CSVReader
import SparxRobot.Autonomous.Iteration

/-! A script that cannot be read, from the reader's report to the first iteration that runs on
it. The report goes into the first entry of an array that may be null, empty or half filled
there, and the iteration fetches a row before it looks at the report. -/
namespace SparxRobot.Autonomous
open StateTransition

/-- The array as the subsystem sees it. A row that is null raises wherever a row without
entries does. -/
def asScript (rows : Rows) : Script := rows.map fun row => (row.getD []).map Int32.toInt

/-- `readIntCSV` returns these rows, for a file that is there or not. -/
def Reads (file : Option (List Char)) (rows : Rows) : Prop :=
  .finished (.returned rows) ∈ eval (csvStep (file.getD [])) (openFile file)

/-- There is no such file, or one of its lines holds what is no number. -/
def Bad : Option (List Char) → Prop
  | none => True
  | some text => ∃ line ∈ filled (Java.lines text), ¬ Readable line

/-- The first row is there and starts with an error code. -/
def Reported (rows : Rows) : Prop := ∃ code row rest, rows = some (code :: row) :: rest ∧ code < 0

/-- The iteration executes `AUTOEND`, without an exception. -/
def EndsAtOnce (r : Reading) (s : AutoState) : Prop :=
  (runAuto r s).2.executed = some .autoEnd ∧ (runAuto r s).2.raised = false

/-- The file is reported, and an iteration from this state that finds its script ends
autonomous. -/
def ReportedAndEnded (file : Option (List Char)) (r : Reading) (s : AutoState) : Prop :=
  ∃ rows, Reads file rows ∧ Reported rows ∧ EndsAtOnce r { s with currentAuto := asScript rows }

/-- The line has more than separators. -/
def HasField (line : Line) : Prop := Java.split ',' line ≠ []

instance (line : Line) : Decidable (HasField line) := by unfold HasField; infer_instance

/-- The reader gets to this row before it fails: it has a line with a field, as the first row
has, and no line before it is unreadable. -/
def GetsTo (file : Option (List Char)) (step : ℤ) : Prop :=
  ∃ text, file = some text ∧ (∃ line, (filled (Java.lines text))[0]? = some line ∧ HasField line) ∧
    0 ≤ step ∧
    (∃ line, (filled (Java.lines text))[step.toNat]? = some line ∧ HasField line) ∧
    ∀ line ∈ (filled (Java.lines text)).take step.toNat, Readable line

/-- The row that the first iteration after a reset fetches. -/
def firstStep (r : Reading) (s : AutoState) : ℤ := if backgroundJumps r s then s.moveToStep else 1

section Reader

variable {text : List Char} {reader : List Line}

/-- Where the first unreadable line is. -/
theorem exists_first_unreadable (h : ∃ line ∈ reader, ¬ Readable line) :
    ∃ good bad rest, reader = good ++ bad :: rest ∧ (∀ line ∈ good, Readable line) ∧
      ¬ Readable bad := by
  induction reader with
  | nil => simp at h
  | cons line reader ih =>
    by_cases hline : Readable line
    · rw [List.exists_mem_cons_iff, or_iff_right (not_not.mpr hline)] at h
      obtain ⟨good, bad, rest, rfl, hgood, hbad⟩ := ih h
      exact ⟨line :: good, bad, rest, rfl, List.forall_mem_cons.mpr ⟨hline, hgood⟩, hbad⟩
    · exact ⟨[], line, reader, rfl, by simp, hline⟩

/-- The array when an unreadable line is met: the rows before it, what was read of its own, and
the ones that are not filled yet. -/
def partialRows (good : List Line) (bad : Line) (left : ℕ) : Rows :=
  good.map (fun line => some (rowOf line)) ++ some (rowOf bad) :: List.replicate left none

/-- The second pass ends in the report of the first unreadable line. -/
theorem fill_fails (read good rest : List Line) {bad : Line}
    (hgood : ∀ line ∈ good, Readable line) (hbad : ¬ Readable bad) (left : ℕ)
    (hreader : filled reader = good ++ bad :: rest) :
    .finished (report (-2) (some (partialRows (read ++ good) bad left))) ∈
      eval (csvStep text) (.filling read.length (read.length + (good.length + 1 + left))
        (read.map (fun line => some (rowOf line)) ++ List.replicate (good.length + 1 + left) none)
        reader) := by
  induction reader generalizing read good with
  | nil => simp at hreader
  | cons line reader ih =>
    rcases eq_or_ne line [] with rfl | hline
    · rw [filled_cons_nil] at hreader
      rw [eval_blank (by omega)]
      exact ih read good hgood hreader
    · rw [filled_cons hline] at hreader
      have hstep := fills text (read.map (fun line => some (rowOf line)) ++
        List.replicate (good.length + 1 + left) none) reader
        (show read.length < read.length + (good.length + 1 + left) by omega) hline
      have hset : (read.map (fun line => some (rowOf line)) ++
          List.replicate (good.length + 1 + left) none).set read.length (some (rowOf line)) =
          (read ++ [line]).map (fun line => some (rowOf line)) ++
            List.replicate (good.length + left) none := by
        simp [List.set_append_right, Nat.add_right_comm _ 1, List.replicate_succ]
      rw [show (parseRow (Java.split ',' line)).1 = rowOf line from rfl, hset] at hstep
      cases good with
      | nil =>
        obtain ⟨rfl, -⟩ := List.cons.inj hreader
        rw [if_neg hbad] at hstep
        rw [eval_step hstep]
        simpa [partialRows] using eval_finished _
      | cons first good =>
        obtain ⟨rfl, hrest⟩ := List.cons.inj hreader
        obtain ⟨hreadable, hgood⟩ := List.forall_mem_cons.mp hgood
        rw [if_pos hreadable] at hstep
        rw [eval_step hstep]
        have htail := ih (read ++ [line]) good hgood hrest
        have hheight : (read ++ [line]).length + (good.length + 1 + left) =
            read.length + ((line :: good).length + 1 + left) := by
          simp only [List.length_append, List.length_cons, List.length_nil]
          omega
        rw [hheight, List.length_append, List.append_assoc] at htail
        simpa [Nat.add_right_comm _ 1] using htail

theorem length_filled_le (reader : List Line) :
    (filled reader).length ≤ (filled reader.tail).length + 1 := by
  cases reader with
  | nil => simp
  | cons line reader =>
    rcases eq_or_ne line [] with rfl | hline
    · simp
    · simp [filled_cons hline]

/-- What a file with an unreadable line is read to. -/
theorem read_fails {good rest : List Line} {bad : Line}
    (htext : filled (Java.lines text) = good ++ bad :: rest)
    (hgood : ∀ line ∈ good, Readable line) (hbad : ¬ Readable bad) :
    ∃ left, .finished (report (-2) (some (partialRows good bad left))) ∈
      eval (csvStep text) (openFile (some text)) := by
  have hlength := length_filled_le (Java.lines text)
  rw [htext, List.length_append, List.length_cons] at hlength
  obtain ⟨left, hleft⟩ := Nat.exists_eq_add_of_le
    (show good.length + 1 ≤ (filled (Java.lines text).tail).length + 1 by omega)
  refine ⟨left, ?_⟩
  rw [reaches_eval counted, hleft]
  simpa using fill_fails [] good rest hgood hbad left htext

end Reader

section Rows

variable {good : List Line} {bad line : Line} {left : ℕ} {rows : Rows}

theorem parseRow_length (values : List (List Char)) :
    (parseRow values).1.length = values.length := by
  induction values with
  | nil => rfl
  | cons value values ih => cases hparse : Java.parseInt value <;> simp [parseRow, hparse, ih]

theorem rowOf_ne_nil_iff : rowOf line ≠ [] ↔ HasField line := by
  rw [HasField, ← List.length_pos_iff, ← List.length_pos_iff, rowOf, parseRow_length]

/-- The rows that are filled, those of the readable lines and of the first unreadable one. -/
theorem partialRows_eq : partialRows good bad left =
    (good ++ [bad]).map (fun line => some (rowOf line)) ++ List.replicate left none := by
  simp [partialRows]

/-- A row of the array has a first entry when it is filled and its line has a field. -/
theorem entry_partialRows (step : ℤ) :
    ((asScript (partialRows good bad left)).entry step 0).isSome = true ↔
      0 ≤ step ∧ ∃ line, (good ++ [bad])[step.toNat]? = some line ∧ HasField line := by
  unfold Script.entry Script.row
  by_cases hstep : step < 0
  · simp [hstep]
  rw [if_neg hstep, and_iff_right (not_lt.mp hstep), partialRows_eq, asScript]
  rcases lt_or_ge step.toNat (good ++ [bad]).length with hlt | hge
  · rw [List.map_append, List.getElem?_append_left (by simpa using hlt), List.map_map,
      List.getElem?_map, List.getElem?_eq_getElem hlt]
    have hfield : rowOf (good ++ [bad])[step.toNat] ≠ [] ↔ _ := rowOf_ne_nil_iff
    simpa [List.length_pos_iff] using hfield
  · rw [List.map_append, List.getElem?_append_right (by simpa using hge),
      List.getElem?_eq_none hge]
    simp [List.getElem?_replicate]

/-- The report replaces the first entry of the first row, when there is one. -/
theorem report_eq_returned_iff {code : Int32} {currentAuto : Rows} :
    report code (some currentAuto) = .returned rows ↔ ∃ first row rest,
      currentAuto = some (first :: row) :: rest ∧ rows = some (code :: row) :: rest := by
  unfold report
  split <;> grind

/-- The first row has a first entry. -/
theorem entry_zero_iff : ((asScript rows).entry 0 0).isSome = true ↔
    ∃ first row rest, rows = some (first :: row) :: rest := by
  rcases rows with _ | ⟨_ | _ | ⟨first, row⟩, rest⟩ <;>
    simp [Script.entry, Script.row, asScript]

/-- The report leaves the rows their lengths. -/
theorem entry_report (code first : Int32) (row : List Int32) (rest : Rows) (step : ℤ) :
    ((asScript (some (code :: row) :: rest)).entry step 0).isSome =
      ((asScript (some (first :: row) :: rest)).entry step 0).isSome := by
  unfold Script.entry Script.row
  split
  · rfl
  · cases step.toNat <;> simp [asScript]

/-- Which lines are read is settled before the first unreadable one. -/
theorem getsTo_line_iff (rest : List Line) (hgood : ∀ line ∈ good, Readable line)
    (hbad : ¬ Readable bad) (k : ℕ) :
    (∃ line, (good ++ [bad])[k]? = some line ∧ HasField line) ↔
      (∃ line, (good ++ bad :: rest)[k]? = some line ∧ HasField line) ∧
        ∀ line ∈ (good ++ bad :: rest).take k, Readable line := by
  rw [List.append_cons good bad rest]
  rcases lt_or_ge k (good ++ [bad]).length with hlt | hge
  · rw [List.getElem?_append_left hlt]
    refine (and_iff_left ?_).symm
    rw [List.length_append, List.length_singleton] at hlt
    rw [← List.append_cons, List.take_append_of_le_length (by omega)]
    exact fun line hline => hgood line (List.mem_of_mem_take hline)
  · refine iff_of_false ?_ ?_
    · rw [List.getElem?_eq_none hge]
      rintro ⟨line, hline, -⟩
      nomatch hline
    · rintro ⟨-, hall⟩
      rw [List.take_append, List.take_of_length_le hge] at hall
      exact hbad (hall bad (by simp))

end Rows

section Iteration

variable {r : Reading} {s : AutoState}

/-- An iteration that fetches ends autonomous on an error code, if its row can be fetched. -/
theorem endsAtOnce_iff {code : ℤ} (hm : r.mode.isEnabled = true)
    (ha : r.mode.isAutonomous = true) (hinc : s.incStep = true)
    (hentry : s.currentAuto.entry 0 0 = some code) (hcode : code < 0) :
    EndsAtOnce r s ↔ (s.currentAuto.entry (nextStep r s) 0).isSome = true := by
  unfold EndsAtOnce
  rw [runAuto_eq hm ha, if_pos (fetches_of_incStep hinc)]
  cases hrow : s.currentAuto.entry (nextStep r s) 0 with
  | none => simp
  | some c =>
    dsimp only
    rw [enter_eq (s := arrived r s (.ofCode c)) hentry]
    simp [guarded, Int.not_le.mpr hcode, runCase]

/-- A reset leaves no critical time, and no row to start from but the first. -/
theorem nextStep_reset (r' : Reading) : nextStep r (reset r' s) = firstStep r s := by
  have hcrit : critFires r (reset r' s) = false := by simp [critFires, reset]
  have hjumps : backgroundJumps r (reset r' s) = backgroundJumps r s := by
    unfold reset getCurrentAuto
    split <;> rfl
  have hmove : (reset r' s).moveToStep = s.moveToStep := by
    unfold reset getCurrentAuto
    split <;> rfl
  rw [nextStep, hcrit, hjumps, hmove]
  simp [firstStep, reset]

end Iteration

/-- A file that is not there is not reported: the first entry of the array is set before there
is an array. -/
theorem not_reads_missing (rows : Rows) : ¬ Reads none rows := by
  intro hreads
  nomatch Part.mem_unique hreads (eval_finished (report (-1) none))

/-- What is reported of a file with an unreadable line, and when the report ends autonomous. -/
theorem reportedAndEnded_iff {text : List Char} {good rest : List Line} {bad : Line}
    {r : Reading} {s : AutoState} (hm : r.mode.isEnabled = true)
    (ha : r.mode.isAutonomous = true) (hinc : s.incStep = true)
    (htext : filled (Java.lines text) = good ++ bad :: rest)
    (hgood : ∀ line ∈ good, Readable line) (hbad : ¬ Readable bad) :
    ReportedAndEnded (some text) r s ↔
      (∃ line, (good ++ [bad])[0]? = some line ∧ HasField line) ∧
        0 ≤ nextStep r s ∧
          ∃ line, (good ++ [bad])[(nextStep r s).toNat]? = some line ∧ HasField line := by
  obtain ⟨left, hread⟩ := read_fails htext hgood hbad
  have hreads : ∀ rows, Reads (some text) rows ↔
      report (-2) (some (partialRows good bad left)) = .returned rows := by
    intro rows
    constructor
    · intro hrows
      exact CSVState.finished.inj (Part.mem_unique hread hrows)
    · intro hrows
      rw [hrows] at hread
      exact hread
  have hends : ∀ (first : Int32) row rest,
      EndsAtOnce r { s with currentAuto := asScript (some (-2 :: row) :: rest) } ↔
        ((asScript (some (first :: row) :: rest)).entry (nextStep r s) 0).isSome = true := by
    intro first row rest
    rw [← entry_report (-2) first row rest]
    have hcode : (asScript (some (-2 :: row) :: rest)).entry 0 0 = some (-2) := rfl
    exact endsAtOnce_iff hm ha hinc hcode (by decide)
  have hzero : ((asScript (partialRows good bad left)).entry 0 0).isSome = true ↔ _ :=
    entry_partialRows 0
  have hrow : ((asScript (partialRows good bad left)).entry (nextStep r s) 0).isSome = true ↔ _ :=
    entry_partialRows (nextStep r s)
  rw [and_iff_right le_rfl, Int.toNat_zero, entry_zero_iff] at hzero
  rw [← hzero, ← hrow]
  constructor
  · rintro ⟨rows, hrows, -, hend⟩
    obtain ⟨first, row, rest, harray, rfl⟩ := report_eq_returned_iff.mp ((hreads rows).mp hrows)
    refine ⟨⟨first, row, rest, harray⟩, ?_⟩
    rw [harray]
    exact (hends first row rest).mp hend
  · rintro ⟨⟨first, row, rest, harray⟩, hentry⟩
    rw [harray] at hentry
    refine ⟨some (-2 :: row) :: rest, (hreads _).mpr ?_, ⟨-2, row, rest, rfl, by decide⟩,
      (hends first row rest).mpr hentry⟩
    exact report_eq_returned_iff.mpr ⟨first, row, rest, harray, rfl⟩

/-- A bad script is reported, and ends autonomous in the first iteration after a reset, exactly
when the file is there and the reader gets to the row of that iteration. -/
theorem failedRead_ends_iff (file : Option (List Char)) (r' r : Reading) (s : AutoState)
    (hfile : Bad file) (hm : r.mode.isEnabled = true) (ha : r.mode.isAutonomous = true) :
    ReportedAndEnded file r (reset r' s) ↔ GetsTo file (firstStep r s) := by
  cases file with
  | none =>
    refine iff_of_false ?_ ?_
    · rintro ⟨rows, hrows, -⟩
      exact not_reads_missing rows hrows
    · rintro ⟨text, htext, -⟩
      nomatch htext
  | some text =>
    obtain ⟨good, bad, rest, htext, hgood, hbad⟩ := exists_first_unreadable hfile
    have hline := getsTo_line_iff rest hgood hbad
    rw [reportedAndEnded_iff hm ha rfl htext hgood hbad, nextStep_reset, hline 0, hline,
      and_iff_left (by simp : ∀ line ∈ (good ++ bad :: rest).take 0, Readable line), ← htext]
    constructor
    · rintro ⟨hfirst, hstep, hrow, hread⟩
      exact ⟨text, rfl, hfirst, hstep, hrow, hread⟩
    · rintro ⟨_, hsome, hfirst, hstep, hrow, hread⟩
      obtain rfl := Option.some.inj hsome
      exact ⟨hfirst, hstep, hrow, hread⟩

/-- A third line that is no number. -/
theorem failedRead_ends_iff_thirdLine :
    ReportedAndEnded (some "0\n5,0\nx".toList) {} (reset {} {}) :=
  (failedRead_ends_iff (some "0\n5,0\nx".toList) {} {} {} ⟨"x".toList, by decide⟩ rfl rfl).mpr
    ⟨_, rfl, ⟨"0".toList, by decide⟩, by decide, ⟨"5,0".toList, by decide⟩, by decide⟩

/-- A file that is not there ends in an exception. -/
theorem missing_not_reported : ¬ ∀ (file : Option (List Char)) (r' r : Reading) (s : AutoState),
    Bad file → r.mode.isEnabled = true → r.mode.isAutonomous = true →
      ReportedAndEnded file r (reset r' s) := by
  intro hall
  obtain ⟨rows, hrows, -⟩ := hall none {} {} {} trivial rfl rfl
  exact not_reads_missing rows hrows

end SparxRobot.Autonomous
