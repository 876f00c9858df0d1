import SparxRobot.Machine.LastWhere
import SparxRobot.Autonomous.Iteration

/-! Runs of the autonomous subsystem as lists of moments, and what such a history
remembers: the rows dispatched, the latest dispatch and the latest `SETCRITSTEP`. -/
namespace SparxRobot.Autonomous
open Machine

abbrev AutoMoment := Moment AutoState AutoEvent Tick

namespace AutoEvent

/-- The event is an iteration in the disabled branch of `execute`. -/
def Resets : AutoEvent → Prop
  | execute r => Autonomous.Resets r
  | setRunAuto _ => False

instance : DecidablePred Resets
  | execute r => inferInstanceAs (Decidable (Autonomous.Resets r))
  | setRunAuto _ => inferInstanceAs (Decidable False)

/-- The event runs the body of `runAuto` from this state. -/
def Runs (s : AutoState) : AutoEvent → Prop
  | execute r => Autonomous.Runs r s
  | setRunAuto _ => False

instance (s : AutoState) : DecidablePred (Runs s)
  | execute r => inferInstanceAs (Decidable (Autonomous.Runs r s))
  | setRunAuto _ => inferInstanceAs (Decidable False)

/-- What an iteration reads; a callback reads nothing. -/
def reading : AutoEvent → Reading
  | execute r => r
  | setRunAuto _ => {}

end AutoEvent

/-- A disabled iteration that finds this script selected. -/
def loads (a : Script) : AutoEvent := .execute { mode := .autoDisabled, selected := a }

/-- What an enabled iteration reads at `now`. -/
def readsAt (now : ℤ) (done : Bool) : Reading :=
  { critNow := now, backgroundNow := now, commandNow := now, autoDone := done }

def runsAt (now : ℤ) (done : Bool) : AutoEvent := .execute (readsAt now done)

/-- A tick of an event that runs nothing. -/
def Tick.Idle (t : Tick) : Prop :=
  t.ran = false ∧ t.critFired = false ∧ t.fetched = none ∧ t.executed = none ∧
    t.raised = false

/-- The state but for the two flags of `setRunAuto`. -/
def Unmoved (s t : AutoState) : Prop :=
  ∃ b b', t = { s with runAuto := b, autoRun := b' }

/-- An event runs an iteration, resets the script, or moves nothing. -/
theorem autoStep_cases (s : AutoState) (e : AutoEvent) :
    (∃ r, e = .execute r ∧ Runs r s ∧ autoStep s e = runAuto r s) ∨
      (∃ r, e = .execute r ∧ Resets r ∧ autoStep s e = (reset r s, {})) ∨
        (¬ e.Runs s ∧ ¬ e.Resets ∧ Unmoved s (autoStep s e).1 ∧ (autoStep s e).2.Idle) := by
  cases e with
  | execute r =>
    by_cases hr : Runs r s
    · exact .inl ⟨r, rfl, hr, execute_of_runs hr⟩
    · by_cases hn : Resets r
      · exact .inr (.inl ⟨r, rfl, hn, execute_of_resets hn⟩)
      · refine .inr (.inr ⟨hr, hn, ?_⟩)
        rw [show autoStep s (.execute r) = (s, {}) from execute_idle hr hn]
        exact ⟨⟨s.runAuto, s.autoRun, rfl⟩, rfl, rfl, rfl, rfl, rfl⟩
  | setRunAuto auto =>
    refine .inr (.inr ⟨id, id, ?_⟩)
    simp only [autoStep, setRunAuto]
    split
    · exact ⟨⟨auto, false, rfl⟩, rfl, rfl, rfl, rfl, rfl⟩
    · exact ⟨⟨auto, s.autoRun, rfl⟩, rfl, rfl, rfl, rfl, rfl⟩

/-- Without the resets only an iteration moves anything. -/
theorem autoStep_cases_of_not_resets {s : AutoState} {e : AutoEvent} (h : ¬ e.Resets) :
    (∃ r, e = .execute r ∧ Runs r s ∧ autoStep s e = runAuto r s) ∨
      (Unmoved s (autoStep s e).1 ∧ (autoStep s e).2.Idle) := by
  rcases autoStep_cases s e with hr | ⟨r, rfl, hn, -⟩ | ⟨-, -, hu⟩
  · exact .inl hr
  · exact absurd hn h
  · exact .inr hu

/-- The rows a run dispatched, in order. -/
def dispatched (τ : List AutoMoment) : List ℤ := τ.filterMap fun x => x.output.fetched

@[simp] theorem dispatched_nil : dispatched [] = [] := rfl

@[simp] theorem dispatched_append (τ υ : List AutoMoment) :
    dispatched (τ ++ υ) = dispatched τ ++ dispatched υ := by simp [dispatched]

theorem dispatched_singleton (x : AutoMoment) :
    dispatched [x] = x.output.fetched.toList := by
  cases h : x.output.fetched <;> simp [dispatched, h]

theorem mem_dispatched {τ : List AutoMoment} {i : ℤ} :
    i ∈ dispatched τ ↔ ∃ x ∈ τ, x.output.fetched = some i := by
  simp [dispatched]

/-- The moment dispatched a row. -/
def isDispatch (x : AutoMoment) : Bool := x.output.fetched.isSome

/-- The moment dispatched a `SETCRITSTEP` row. -/
def setsCrit (x : AutoMoment) : Bool :=
  isDispatch x && decide (x.output.executed = some .setCritStep)

/-- The latest dispatch of a history and what came after it. -/
def lastDispatch (h : List AutoMoment) : Option (AutoMoment × List AutoMoment) :=
  lastWhere isDispatch h

/-- The latest `SETCRITSTEP` of a history and what came after it. -/
def lastCrit (h : List AutoMoment) : Option (AutoMoment × List AutoMoment) :=
  lastWhere setsCrit h

section Append

variable {h : List AutoMoment} {x : AutoMoment}

theorem lastDispatch_append_dispatch (hx : isDispatch x = true) :
    lastDispatch (h ++ [x]) = some (x, []) := lastWhere_append_hit hx

theorem lastDispatch_append_other (hx : isDispatch x = false) :
    lastDispatch (h ++ [x]) = (lastDispatch h).map fun r => (r.1, r.2 ++ [x]) :=
  lastWhere_append_miss hx

theorem lastCrit_append_crit (hx : setsCrit x = true) :
    lastCrit (h ++ [x]) = some (x, []) := lastWhere_append_hit hx

theorem lastCrit_append_other (hx : setsCrit x = false) :
    lastCrit (h ++ [x]) = (lastCrit h).map fun r => (r.1, r.2 ++ [x]) :=
  lastWhere_append_miss hx

theorem isDispatch_of_fetched {i : ℤ} (hx : x.output.fetched = some i) :
    isDispatch x = true := by simp [isDispatch, hx]

theorem isDispatch_eq_false (hx : x.output.fetched = none) : isDispatch x = false := by
  simp [isDispatch, hx]

theorem setsCrit_eq_false (hx : x.output.fetched = none) : setsCrit x = false := by
  simp [setsCrit, isDispatch, hx]

end Append

/-- A dispatch history whose rows stay below what comes next is strictly increasing. -/
theorem dispatched_append_increasing {h : List AutoMoment} {x : AutoMoment}
    (hh : (dispatched h).Pairwise (· < ·))
    (hx : ∀ k, x.output.fetched = some k → ∀ i ∈ dispatched h, i < k) :
    (dispatched (h ++ [x])).Pairwise (· < ·) := by
  rw [dispatched_append, dispatched_singleton, List.pairwise_append]
  refine ⟨hh, ?_, ?_⟩
  · cases x.output.fetched <;> simp
  · intro i hi k hk
    cases hf : x.output.fetched with
    | none => simp [hf] at hk
    | some j =>
      obtain rfl : k = j := by simpa [hf] using hk
      exact hx k hf i hi

end SparxRobot.Autonomous
