import SparxRobot.Autonomous.WellFormed

/-! Index safety. The fetch reads the row before the step index is checked, and each case
reads as many entries as its command has parameters; an exception ends the iteration and
the robot does not abort. -/
namespace SparxRobot.Autonomous
open Machine

/-- A reset event finds a script with a first entry in row zero. -/
def AutoEvent.Selects (e : AutoEvent) : Prop := e.Resets → e.reading.selected.Readable

instance : DecidablePred AutoEvent.Selects := by unfold AutoEvent.Selects; infer_instance

/-- The iteration indexed nothing outside the script or a row, ended autonomous when the
step index had left the script, and turned to a heading where the mode of a turn is
missing or unknown. -/
structure EndsSafely (x : AutoMoment) : Prop where
  inside : x.output.raised = false
  leaves : x.output.ran = true → ¬ x.pre.currentAuto.HasStep x.post.currStep →
    x.output.executed = some .autoEnd ∧ x.output.calls = abortCommands ++ [.setTargetType .none]
  turn : x.output.executed = some .drivesTurn →
    x.pre.currentAuto.entry x.post.currStep 3 ≠ some 1 →
    x.pre.currentAuto.entry x.post.currStep 3 ≠ some 2 →
    ∃ angle speed, x.output.calls = [.autoTurnToHeading angle speed]

/-- The iteration goes to a row that has a command, and the row has every entry its
command reads; a second background timer reads none. -/
structure SafeStep (r : Reading) (s : AutoState) : Prop where
  row : fetches r s = true → ∃ code, s.currentAuto.entry (nextStep r s) 0 = some code
  entries : (switchCommand r s).arity ≤ s.currentAuto.width (nextStep r s) ∨
    switchCommand r s = .backgroundDelay ∧ (landed r s).backgroundWaitTime ≠ 0

instance (r : Reading) (s : AutoState) : Decidable (SafeStep r s) :=
  decidable_of_iff
    ((fetches r s = true → (s.currentAuto.entry (nextStep r s) 0).isSome = true) ∧
      ((switchCommand r s).arity ≤ s.currentAuto.width (nextStep r s) ∨
        switchCommand r s = .backgroundDelay ∧ (landed r s).backgroundWaitTime ≠ 0))
    ⟨fun h => ⟨fun hf => Option.isSome_iff_exists.mp (h.1 hf), h.2⟩,
      fun h => ⟨fun hf => Option.isSome_iff_exists.mpr (h.row hf), h.entries⟩⟩

/-- The condition on an event: it concerns iterations that run. -/
def AutoEvent.SafeStep (s : AutoState) (e : AutoEvent) : Prop :=
  e.Runs s → Autonomous.SafeStep e.reading s

instance (s : AutoState) : DecidablePred (AutoEvent.SafeStep s) := by
  unfold AutoEvent.SafeStep; infer_instance

section Case

variable {r : Reading} {s : AutoState}

/-- A turn that did not raise and has neither known mode turns to a heading. -/
theorem runCase_turn (hc : s.currCommand = .drivesTurn) (hr : (runCase r s).raised = false)
    (h1 : s.currentAuto.entry s.currStep 3 ≠ some 1)
    (h2 : s.currentAuto.entry s.currStep 3 ≠ some 2) :
    ∃ angle speed, (runCase r s).calls = [.autoTurnToHeading angle speed] := by
  revert hr
  unfold runCase
  simp only [hc]
  split
  · next mode angle speed hm _ _ =>
    intro _
    have hm1 : mode ≠ 1 := fun h => h1 (h ▸ hm)
    have hm2 : mode ≠ 2 := fun h => h2 (h ▸ hm)
    exact ⟨angle, speed, by simp [hm1, hm2]⟩
  · simp

theorem runCase_autoEnd (hc : s.currCommand = .autoEnd) :
    (runCase r s).calls = abortCommands ++ [.setTargetType .none] := by
  unfold runCase
  simp only [hc]

end Case

section Step

variable {r : Reading} {s : AutoState}

/-- An iteration of a readable script raises exactly where its row is missing or short. -/
theorem execute_raised_iff (hr : Runs r s) (hz : s.currentAuto.Readable) :
    (execute r s).2.raised = false ↔ SafeStep r s := by
  by_cases hrow : fetches r s = true → ∃ c, s.currentAuto.entry (nextStep r s) 0 = some c
  · rw [execute_eq hr hz hrow]
    have hiff := runCase_raised_iff r (arrived r s (switchCommand r s))
    rw [← Bool.not_eq_true, hiff]
    constructor
    · intro h
      refine ⟨hrow, ?_⟩
      by_contra hcon
      rw [not_or] at hcon
      exact h ⟨Nat.not_le.mp hcon.1, hcon.2⟩
    · rintro ⟨-, h⟩ ⟨hlt, hn⟩
      rcases h with h | h
      · exact absurd hlt (Nat.not_lt.mpr h)
      · exact hn h
  · constructor
    · intro h
      rw [execute_eq_of_missing hr hrow] at h
      simp at h
    · intro h
      exact absurd h.row hrow

/-- Not raising is all it takes: the guard and the turn's default then do their part. -/
theorem endsSafely_of_not_raised (hr : Runs r s) (hz : s.currentAuto.Readable)
    (h : (execute r s).2.raised = false) :
    EndsSafely (moment autoStep s (.execute r)) := by
  have hsafe := (execute_raised_iff hr hz).mp h
  have heq := execute_eq hr hz hsafe.row
  have hout : (moment autoStep s (.execute r)).output = (execute r s).2 := rfl
  have hpost : (moment autoStep s (.execute r)).post.currStep = nextStep r s := by
    show (execute r s).1.currStep = nextStep r s
    rw [heq]
    exact runCase_currStep _ _
  refine ⟨h, ?_, ?_⟩
  · intro _ hleft
    rw [hpost] at hleft
    have hend : switchCommand r s = .autoEnd := if_neg fun hin => hleft hin.1
    rw [hout, heq]
    exact ⟨congrArg some hend, runCase_autoEnd hend⟩
  · intro hturn h1 h2
    rw [hpost] at h1 h2
    rw [hout, heq] at hturn ⊢
    rw [heq] at h
    exact runCase_turn (Option.some.inj hturn) h h1 h2

end Step

section Run

variable {s : AutoState} {events : List AutoEvent}

theorem reset_readable {r : Reading} (h : s.currentAuto.Readable)
    (hr : r.selected.Readable) : (reset r s).currentAuto.Readable := by
  unfold reset getCurrentAuto
  split
  · exact hr
  · exact h

/-- A state that can read its script keeps being able to. -/
theorem autoStep_readable {e : AutoEvent} (h : s.currentAuto.Readable) (he : e.Selects) :
    (autoStep s e).1.currentAuto.Readable := by
  rcases autoStep_cases s e with ⟨r, rfl, hr, heq⟩ | ⟨r, rfl, hn, heq⟩ |
    ⟨-, -, ⟨b, b', hu⟩, -⟩
  · rw [heq, runAuto_currentAuto hr.1 hr.2.1]
    exact h
  · rw [heq]
    exact reset_readable h (he hn)
  · rw [hu]
    exact h

/-- One event ends safely exactly when the row it goes to is long enough. -/
theorem endsSafely_iff {e : AutoEvent} (h : s.currentAuto.Readable) :
    EndsSafely (moment autoStep s e) ↔ e.SafeStep s := by
  rcases autoStep_cases s e with ⟨r, rfl, hr, -⟩ | ⟨r, rfl, hn, heq⟩ | ⟨hnr, -, -, hi⟩
  · constructor
    · exact fun hsafe _ => (execute_raised_iff hr h).mp hsafe.inside
    · exact fun hsafe => endsSafely_of_not_raised hr h ((execute_raised_iff hr h).mpr (hsafe hr))
  · refine ⟨fun _ hr => absurd hr (not_runs_of_resets hn), fun _ => ⟨?_, ?_, ?_⟩⟩ <;>
      simp [heq]
  · refine ⟨fun _ hr => absurd hr hnr, fun _ => ⟨?_, ?_, ?_⟩⟩ <;>
      simp [hi.1, hi.2.2.2.1, hi.2.2.2.2]

/-- In every run over readable scripts, all iterations end safely if and only if each of
them goes to a row that exists and has every entry its command reads. -/
theorem run_ends_safely_iff (h : s.currentAuto.Readable) (he : ∀ e ∈ events, e.Selects) :
    (∀ x ∈ trace autoStep s events, EndsSafely x) ↔
      ∀ x ∈ trace autoStep s events, x.input.SafeStep x.pre := by
  have hstep : ∀ s (e : AutoEvent), s.currentAuto.Readable → e.Selects →
      (autoStep s e).1.currentAuto.Readable := fun s e h he => autoStep_readable h he
  apply forall_trace_congr hstep _ h fun m hm => he _ (input_mem_of_mem hm)
  intro s e hs
  exact endsSafely_iff hs

/-- A turn of unknown mode and a timer past the last row, over rows that are long enough. -/
theorem longRows_end_safely :
    let s := final autoStep {} [loads [[0], [2, 90, 40, 0], [99]], .setRunAuto true]
    let τ := trace autoStep s [runsAt 20 false, runsAt 40 true, runsAt 60 false]
    (∀ x ∈ τ, EndsSafely x) ∧ dispatched τ = [1, 2] :=
  ⟨(run_ends_safely_iff (by decide) (by decide)).mpr (by decide), by decide⟩

/-- The chooser's default script raises at its missing row one and never aborts. -/
theorem empty_raises :
    ¬ ∀ (s : AutoState) (events : List AutoEvent), Reachable s → s.currentAuto.Readable →
      (∀ e ∈ events, e.Selects) → ∀ x ∈ trace autoStep s events, EndsSafely x := by
  intro h
  have hrun := h (final autoStep {} [loads EMPTY, .setRunAuto true]) [runsAt 20 true]
    ⟨_, rfl⟩ (by decide) (by decide) _ (List.mem_singleton.mpr rfl)
  exact absurd hrun.inside (by decide)

end Run

end SparxRobot.Autonomous
