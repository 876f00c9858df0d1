import SparxRobot.Autonomous.History

/-! Iterations over a well-formed script: a fetch inside the script always runs the
row's own command, and a row that is not finished leaves a command that waits. -/
namespace SparxRobot.Autonomous
open Machine

namespace Command

/-- What `currCommand` holds while a row of this command is still in progress. -/
def settle : Command → Command
  | drivesForward | drivesTurn | drivesMove | drivesLift => drivesDone
  | delay => waiting
  | unknown _ => autoEnd
  | backgroundDelay => autoEnd
  | c => c

/-- The commands an iteration may bring back to the switch without a fetch. -/
def Lasting (c : Command) : Prop :=
  c = drivesDone ∨ c = waiting ∨ c = drivesStop ∨ c = autoEnd ∨ c = hold

theorem Lasting.arity {c : Command} (h : c.Lasting) : c.arity = 0 := by
  rcases h with rfl | rfl | rfl | rfl | rfl <;> rfl

theorem Lasting.settle {c : Command} (h : c.Lasting) : c.settle = c := by
  rcases h with rfl | rfl | rfl | rfl | rfl <;> rfl

theorem Lasting.ne_backgroundDelay {c : Command} (h : c.Lasting) : c ≠ .backgroundDelay := by
  rcases h with rfl | rfl | rfl | rfl | rfl <;> decide

theorem Lasting.ne_setCritStep {c : Command} (h : c.Lasting) : c ≠ .setCritStep := by
  rcases h with rfl | rfl | rfl | rfl | rfl <;> decide

theorem settle_of_isMotion {c : Command} (h : c.isMotion = true) : c.settle = drivesDone := by
  cases c <;> simp_all [isMotion, Command.settle]

end Command

section Cases

variable {r : Reading} {s : AutoState}

/-- A case that finishes its row at once: what it cannot be, and what it saw. -/
theorem runCase_finishes (hi : s.incStep = false) (h : (runCase r s).state.incStep = true) :
    s.currCommand.isMotion = false ∧ s.currCommand ≠ .delay ∧ s.currCommand ≠ .autoEnd ∧
      s.currCommand ≠ .hold ∧ (s.currCommand = .waiting → s.waitTime ≤ r.commandNow) ∧
      (s.currCommand = .drivesDone → r.autoDone = true) ∧
      (s.currCommand = .drivesStop → r.stopped = true) := by
  revert h
  unfold runCase liftMove
  cases hc : s.currCommand <;> dsimp only [Command.isMotion] <;> (repeat' split) <;> simp_all

/-- A case that leaves its row in progress without raising leaves a waiting command. -/
theorem runCase_lasts (hr : (runCase r s).raised = false)
    (h : (runCase r s).state.incStep = false) :
    (runCase r s).state.currCommand = s.currCommand.settle ∧
      s.currCommand.settle.Lasting := by
  revert hr h
  unfold runCase liftMove
  cases hc : s.currCommand <;> dsimp only [Command.settle] <;> (repeat' split) <;>
    simp_all [Command.Lasting]

/-- `DELAY` notes the time its row asks for. -/
theorem runCase_delay (hc : s.currCommand = .delay) (hr : (runCase r s).raised = false) :
    ∃ d, s.currentAuto.entry s.currStep 1 = some d ∧
      (runCase r s).state.waitTime = r.commandNow + d := by
  revert hr
  unfold runCase
  simp only [hc]
  split
  · next d hd => exact fun _ => ⟨d, hd, rfl⟩
  · simp

/-- `SETCRITSTEP` sets the critical step its row names and finishes. -/
theorem runCase_setCritStep (hc : s.currCommand = .setCritStep)
    (hr : (runCase r s).raised = false) :
    s.currentAuto.entry s.currStep 1 = some (runCase r s).state.critStep ∧
      (runCase r s).state.incStep = true := by
  revert hr
  unfold runCase
  simp only [hc]
  split
  · simp
  · next step hstep =>
    split
    · exact fun _ => ⟨hstep, rfl⟩
    · simp

theorem runCase_not_raised (h : s.currCommand.arity ≤ s.currentAuto.width s.currStep) :
    (runCase r s).raised = false := by
  rw [← Bool.not_eq_true, runCase_raised_iff]
  exact fun hc => absurd hc.1 (Nat.not_lt.mpr h)

end Cases

namespace Script.WellFormed

variable {a : Script}

/-- A row that does not stop the script has a successor. -/
theorem hasStep_succ (wf : a.WellFormed) {i : ℤ} {c : Command} (hc : a.command i = some c)
    (he : c ≠ .autoEnd) (hh : c ≠ .hold) : a.HasStep (i + 1) := by
  obtain ⟨v, hv, rfl⟩ := Option.map_eq_some_iff.mp hc
  obtain ⟨h0, hlt⟩ := Script.hasStep_of_entry hv
  refine ⟨by omega, ?_⟩
  by_contra hge
  obtain rfl : i = a.length - 1 := by omega
  rcases wf.closed with hl | hl <;> rw [hl] at hc <;> simp_all

end Script.WellFormed

section Iteration

variable {a : Script} {r : Reading} {s : AutoState}

private theorem guarded_eq {code : ℤ} {e : AutoState} (hs : e.currentAuto.HasStep e.currStep)
    (h0 : 0 ≤ code) : guarded code e = e := by
  simp [guarded, hs, h0]

/-- A fetch inside a well-formed script runs the fetched row and does not raise. -/
theorem runAuto_fetch (wf : a.WellFormed) (hs : s.currentAuto = a)
    (hm : r.mode.isEnabled = true) (ha : r.mode.isAutonomous = true)
    (hf : fetches r s = true) (hk : a.HasStep (nextStep r s)) :
    ∃ c, a.command (nextStep r s) = some c ∧
      (runCase r (arrived r s c)).raised = false ∧
      runAuto r s = ((runCase r (arrived r s c)).state,
        { ran := true, critFired := critFires r s, fetched := some (nextStep r s),
          executed := some c, calls := (runCase r (arrived r s c)).calls }) := by
  obtain ⟨c, hc⟩ := wf.nonempty _ hk
  obtain ⟨code, hcode, rfl⟩ := Option.map_eq_some_iff.mp hc
  obtain ⟨z, hz, hz0⟩ := wf.rowZero
  have hsa : (arrived r s (.ofCode code)).currentAuto = a := hs
  have hraised : (runCase r (arrived r s (.ofCode code))).raised = false :=
    runCase_not_raised (by rw [hsa]; exact wf.complete _ _ hc)
  refine ⟨_, hc, hraised, ?_⟩
  rw [runAuto_eq hm ha, if_pos hf, hs, hcode]
  have hg : guarded z (arrived r s (.ofCode code)) = arrived r s (.ofCode code) :=
    guarded_eq (by rw [hsa]; exact hk) hz0
  show enter r _ _ (arrived r s (.ofCode code)) = _
  rw [enter_eq (by rw [hsa]; exact hz), hg, hraised]
  rfl

/-- Without a fetch a lasting command runs again where it stands. -/
theorem runAuto_pending (wf : a.WellFormed) (hs : s.currentAuto = a)
    (hm : r.mode.isEnabled = true) (ha : r.mode.isAutonomous = true)
    (hf : fetches r s = false) (hk : a.HasStep s.currStep)
    (hl : (pendingCommand r s).Lasting) :
    (runCase r (arrived r s (pendingCommand r s))).raised = false ∧
      runAuto r s = ((runCase r (arrived r s (pendingCommand r s))).state,
        { ran := true, critFired := false, executed := some (pendingCommand r s),
          calls := (runCase r (arrived r s (pendingCommand r s))).calls }) := by
  obtain ⟨z, hz, hz0⟩ := wf.rowZero
  have hsa : (arrived r s (pendingCommand r s)).currentAuto = a := hs
  have hstep : (arrived r s (pendingCommand r s)).currStep = s.currStep :=
    nextStep_of_not_fetches hf
  have hraised : (runCase r (arrived r s (pendingCommand r s))).raised = false :=
    runCase_not_raised (by
      rw [show (arrived r s (pendingCommand r s)).currCommand = pendingCommand r s from rfl,
        hl.arity]
      exact Nat.zero_le _)
  refine ⟨hraised, ?_⟩
  obtain ⟨hc, -, -⟩ := fetches_eq_false_iff.mp hf
  rw [runAuto_eq hm ha, if_neg (by simp [hf]), hc]
  have hg : guarded z (arrived r s (pendingCommand r s)) = arrived r s (pendingCommand r s) :=
    guarded_eq (by rw [hsa, hstep]; exact hk) hz0
  rw [enter_eq (by rw [hsa]; exact hz), hg, hraised]
  rfl

/-- A fetch outside the script raises with the step index moved and `incStep` still set. -/
theorem runAuto_fetch_raises (hm : r.mode.isEnabled = true) (ha : r.mode.isAutonomous = true)
    (hf : fetches r s = true) (hk : s.currentAuto.entry (nextStep r s) 0 = none) :
    runAuto r s =
      ({ landed r s with incStep := true, currCommand := pendingCommand r s },
        { ran := true, critFired := critFires r s, raised := true }) := by
  rw [runAuto_eq hm ha, if_pos hf, hk]

end Iteration

/-- Between iterations over a well-formed script either the row is finished or a command
that waits stands on a row, and a pending critical jump has a row to go to. -/
structure Steady (a : Script) (s : AutoState) : Prop where
  script : s.currentAuto = a
  phase : s.incStep = true ∨ (s.incStep = false ∧ s.currCommand.Lasting ∧ a.HasStep s.currStep)
  crit : 0 < s.critTime → a.HasStep s.critStep

namespace Steady

variable {a : Script} {s : AutoState} {r : Reading}

theorem of_reset {s₀ : AutoState} (h : (reset r s₀).currentAuto = a) :
    Steady a (reset r s₀) :=
  ⟨h, .inl rfl, fun hpos => absurd hpos (Int.lt_irrefl _)⟩

theorem pendingCommand_lasting (h : Steady a s) (hi : s.incStep = false) :
    (pendingCommand r s).Lasting ∧ a.HasStep s.currStep := by
  rcases h.phase with ht | ⟨-, hl, hk⟩
  · simp [hi] at ht
  · refine ⟨?_, hk⟩
    unfold pendingCommand
    split
    · exact .inr (.inr (.inr (.inl rfl)))
    · exact hl

/-- Everything an iteration from a steady state can do: run a fetched row, raise at a
fetch outside the script, or run the waiting command again. -/
theorem run_cases (wf : a.WellFormed) (h : Steady a s) (hr : Runs r s) :
    (∃ c, fetches r s = true ∧ a.command (nextStep r s) = some c ∧
      (runCase r (arrived r s c)).raised = false ∧
      execute r s = ((runCase r (arrived r s c)).state,
        { ran := true, critFired := critFires r s, fetched := some (nextStep r s),
          executed := some c, calls := (runCase r (arrived r s c)).calls })) ∨
    (fetches r s = true ∧ ¬ a.HasStep (nextStep r s) ∧
      execute r s = ({ landed r s with incStep := true, currCommand := pendingCommand r s },
        { ran := true, critFired := critFires r s, raised := true })) ∨
    (fetches r s = false ∧ nextStep r s = s.currStep ∧ a.HasStep s.currStep ∧
      (pendingCommand r s).Lasting ∧
      (runCase r (arrived r s (pendingCommand r s))).raised = false ∧
      execute r s = ((runCase r (arrived r s (pendingCommand r s))).state,
        { ran := true, critFired := false, executed := some (pendingCommand r s),
          calls := (runCase r (arrived r s (pendingCommand r s))).calls })) := by
  rw [execute_of_runs hr]
  cases hf : fetches r s with
  | true =>
    by_cases hk : a.HasStep (nextStep r s)
    · obtain ⟨c, hc, hraised, heq⟩ := runAuto_fetch wf h.script hr.1 hr.2.1 hf hk
      exact .inl ⟨c, rfl, hc, hraised, heq⟩
    · refine .inr (.inl ⟨rfl, hk, runAuto_fetch_raises hr.1 hr.2.1 hf ?_⟩)
      cases he : s.currentAuto.entry (nextStep r s) 0 with
      | none => rfl
      | some v => exact absurd (h.script ▸ Script.hasStep_of_entry he) hk
  | false =>
    obtain ⟨-, -, hi⟩ := fetches_eq_false_iff.mp hf
    obtain ⟨hl, hk⟩ := h.pendingCommand_lasting (r := r) hi
    obtain ⟨hraised, heq⟩ := runAuto_pending wf h.script hr.1 hr.2.1 hf hk hl
    exact .inr (.inr ⟨rfl, nextStep_of_not_fetches hf, hk, hl, hraised, heq⟩)

private theorem of_case (wf : a.WellFormed) (h : Steady a s) {c : Command}
    (hk : a.HasStep (nextStep r s)) (hc : c = .setCritStep → a.command (nextStep r s) = some c)
    (hraised : (runCase r (arrived r s c)).raised = false) :
    Steady a (runCase r (arrived r s c)).state := by
  refine ⟨by simpa [arrived] using h.script, ?_, ?_⟩
  · cases hi : (runCase r (arrived r s c)).state.incStep with
    | true => exact .inl rfl
    | false =>
      obtain ⟨hset, hlast⟩ := runCase_lasts hraised hi
      refine .inr ⟨rfl, by rw [hset]; exact hlast, ?_⟩
      rw [runCase_currStep]
      exact hk
  · intro hpos
    by_cases hset : c = .setCritStep
    · obtain ⟨ht, -⟩ := runCase_setCritStep hset hraised
      refine wf.critTarget (nextStep r s) _ (hset ▸ hc hset) ?_
      rw [← h.script]
      exact ht
    · obtain ⟨hcs, hct⟩ := runCase_crit r (arrived r s c) hset
      rw [hct] at hpos
      rw [hcs]
      refine h.crit ?_
      by_contra hcon
      simp only [arrived, landed] at hpos
      split at hpos <;> omega

/-- Every event but a reset keeps a steady state steady. -/
theorem step (wf : a.WellFormed) (h : Steady a s) {e : AutoEvent} (he : ¬ e.Resets) :
    Steady a (autoStep s e).1 := by
  rcases autoStep_cases_of_not_resets (s := s) he with ⟨r, rfl, hr, -⟩ | ⟨hu, -⟩
  · show Steady a (execute r s).1
    rcases h.run_cases wf hr with ⟨c, -, hc, hraised, heq⟩ | ⟨-, -, heq⟩ |
      ⟨-, hn, hk, hl, hraised, heq⟩
    · rw [heq]
      exact of_case wf h (Script.hasStep_of_command hc) (fun _ => hc) hraised
    · rw [heq]
      refine ⟨h.script, .inl rfl, fun hpos => h.crit ?_⟩
      by_contra hcon
      simp only [landed] at hpos
      split at hpos <;> omega
    · rw [heq]
      exact of_case wf h (hn ▸ hk) (fun hc => absurd hc hl.ne_setCritStep) hraised
  · obtain ⟨b, b', hu⟩ := hu
    rw [hu]
    exact ⟨h.script, h.phase, h.crit⟩

end Steady

/-- The script in place is the one of power-on, without rows, or well-formed. -/
def Loaded (s : AutoState) : Prop := ∃ a : Script, (a = [] ∨ a.WellFormed) ∧ Steady a s

namespace Loaded

variable {s : AutoState} {r : Reading}

private theorem execute_of_no_rows (h : Steady [] s) (hr : Runs r s) :
    fetches r s = true ∧
      execute r s = ({ landed r s with incStep := true, currCommand := pendingCommand r s },
        { ran := true, critFired := critFires r s, raised := true }) := by
  have hi : s.incStep = true := by
    rcases h.phase with hi | ⟨-, -, hk⟩
    · exact hi
    · exact absurd hk (Script.not_hasStep_nil _)
  have hf := fetches_of_incStep (r := r) hi
  refine ⟨hf, execute_eq_of_missing hr fun hrow => ?_⟩
  obtain ⟨c, hc⟩ := hrow hf
  rw [h.script] at hc
  exact Script.not_hasStep_nil _ (Script.hasStep_of_entry hc)

theorem run_cases (h : Loaded s) (hr : Runs r s) :
    (∃ c, fetches r s = true ∧ s.currentAuto.command (nextStep r s) = some c ∧
      (runCase r (arrived r s c)).raised = false ∧
      execute r s = ((runCase r (arrived r s c)).state,
        { ran := true, critFired := critFires r s, fetched := some (nextStep r s),
          executed := some c, calls := (runCase r (arrived r s c)).calls })) ∨
    (fetches r s = true ∧ ¬ s.currentAuto.HasStep (nextStep r s) ∧
      execute r s = ({ landed r s with incStep := true, currCommand := pendingCommand r s },
        { ran := true, critFired := critFires r s, raised := true })) ∨
    (fetches r s = false ∧ (pendingCommand r s).Lasting ∧
      (runCase r (arrived r s (pendingCommand r s))).raised = false ∧
      execute r s = ((runCase r (arrived r s (pendingCommand r s))).state,
        { ran := true, critFired := false, executed := some (pendingCommand r s),
          calls := (runCase r (arrived r s (pendingCommand r s))).calls })) := by
  obtain ⟨a, rfl | wf, hs⟩ := h
  · obtain ⟨hf, heq⟩ := execute_of_no_rows hs hr
    exact .inr (.inl ⟨hf, by rw [hs.script]; exact Script.not_hasStep_nil _, heq⟩)
  · rcases hs.run_cases wf hr with ⟨c, hf, hc, hx⟩ | ⟨hf, hk, heq⟩ | ⟨hf, -, -, hl, hx⟩
    · exact .inl ⟨c, hf, by rw [hs.script]; exact hc, hx⟩
    · exact .inr (.inl ⟨hf, by rw [hs.script]; exact hk, heq⟩)
    · exact .inr (.inr ⟨hf, hl, hx⟩)

theorem step (h : Loaded s) {e : AutoEvent}
    (hwf : e.Resets → (autoStep s e).1.currentAuto.WellFormed) : Loaded (autoStep s e).1 := by
  by_cases he : e.Resets
  · cases e with
    | execute r =>
      have heq : autoStep s (.execute r) = (reset r s, {}) := execute_of_resets he
      refine ⟨_, .inr (hwf he), ?_⟩
      rw [heq]
      exact .of_reset rfl
    | setRunAuto auto => exact absurd he id
  · obtain ⟨a, rfl | wf, hs⟩ := h
    · refine ⟨[], .inl rfl, ?_⟩
      rcases autoStep_cases_of_not_resets (s := s) he with ⟨r, rfl, hr, -⟩ | ⟨⟨b, b', hu⟩, -⟩
      · show Steady [] (execute r s).1
        rw [(execute_of_no_rows hs hr).2]
        refine ⟨hs.script, .inl rfl, fun hpos => hs.crit ?_⟩
        by_contra hcon
        simp only [landed] at hpos
        split at hpos <;> omega
      · rw [hu]
        exact ⟨hs.script, hs.phase, hs.crit⟩
    · exact ⟨a, .inr wf, hs.step wf he⟩

end Loaded

end SparxRobot.Autonomous
