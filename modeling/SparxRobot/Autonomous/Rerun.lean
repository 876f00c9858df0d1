import SparxRobot.Autonomous.WellFormed

/-! Two runs from two resets. The reset leaves the background timer, its target and the
waiting time as they were; everything else an iteration reads is set by the reset or
before it is read. -/
namespace SparxRobot.Autonomous
open Machine

/-- The run an enabled autonomous period gives: the callback allows the script to run,
then the loop iterates. -/
def enabledRun (rs : List Reading) : List AutoEvent :=
  .setRunAuto true :: rs.map .execute

/-- Both runs dispatched the same rows and made the same calls. -/
def SameRun (τ υ : List AutoMoment) : Prop :=
  dispatched τ = dispatched υ ∧ τ.map (fun x => x.output.calls) = υ.map fun x => x.output.calls

/-- The tests of what the reset leaves behind come out the same in both states: whether
the background timer expires and where it goes, whether a timer is pending at a
`BACKGROUND_DELAY` row, whether the waiting time has come at a `WAITING` command. -/
structure SameTests (r : Reading) (s t : AutoState) : Prop where
  expires : backgroundExpires r s = backgroundExpires r t
  target : backgroundExpires r s = true → s.moveToStep = t.moveToStep
  pending : switchCommand r s = .backgroundDelay →
    ((landed r s).backgroundWaitTime = 0 ↔ (landed r t).backgroundWaitTime = 0)
  waiting : switchCommand r s = .waiting →
    (s.waitTime ≤ r.commandNow ↔ t.waitTime ≤ r.commandNow)

instance (r : Reading) (s t : AutoState) : Decidable (SameTests r s t) :=
  decidable_of_iff
    (backgroundExpires r s = backgroundExpires r t ∧
      (backgroundExpires r s = true → s.moveToStep = t.moveToStep) ∧
      (switchCommand r s = .backgroundDelay →
        ((landed r s).backgroundWaitTime = 0 ↔ (landed r t).backgroundWaitTime = 0)) ∧
      (switchCommand r s = .waiting →
        (s.waitTime ≤ r.commandNow ↔ t.waitTime ≤ r.commandNow)))
    ⟨fun ⟨h1, h2, h3, h4⟩ => ⟨h1, h2, h3, h4⟩, fun ⟨h1, h2, h3, h4⟩ => ⟨h1, h2, h3, h4⟩⟩

/-- The condition on an event of the two runs. -/
def AutoEvent.SameTests (s : AutoState × AutoState) : AutoEvent → Prop
  | execute r => Autonomous.SameTests r s.1 s.2
  | setRunAuto _ => True

instance (s : AutoState × AutoState) : DecidablePred (AutoEvent.SameTests s)
  | .execute r => inferInstanceAs (Decidable (Autonomous.SameTests r s.1 s.2))
  | .setRunAuto _ => inferInstanceAs (Decidable True)

/-- The states agree on all an iteration reads but for what the reset leaves behind. -/
structure Alike (s t : AutoState) : Prop where
  script : s.currentAuto = t.currentAuto
  step : s.currStep = t.currStep
  inc : s.incStep = t.incStep
  critStep : s.critStep = t.critStep
  critTime : s.critTime = t.critTime
  start : s.autoStartTime = t.autoStartTime
  flag : s.runAuto = t.runAuto
  command : s.incStep = false → s.currCommand = t.currCommand

section Congruence

variable {r : Reading} {s t : AutoState}

/-- Both runs go on with the same command. -/
theorem Alike.takes (h : Alike s t) (c : Command) :
    Alike { s with currCommand := c } { t with currCommand := c } :=
  ⟨h.script, h.step, h.inc, h.critStep, h.critTime, h.start, h.flag, fun _ => rfl⟩

/-- Both runs fetch a row next, whatever command they are at. -/
theorem Alike.advances (h : Alike s t) :
    Alike { s with incStep := true } { t with incStep := true } :=
  ⟨h.script, h.step, rfl, h.critStep, h.critTime, h.start, h.flag, fun hc => by cases hc⟩

/-- Both runs stay at the command they are at. -/
theorem Alike.stays (h : Alike s t) (hc : s.currCommand = t.currCommand) :
    Alike { s with incStep := false } { t with incStep := false } :=
  ⟨h.script, h.step, rfl, h.critStep, h.critTime, h.start, h.flag, fun _ => hc⟩

theorem Alike.setsCrit (h : Alike s t) (step : ℤ) :
    Alike { s with critStep := step } { t with critStep := step } :=
  ⟨h.script, h.step, h.inc, rfl, h.critTime, h.start, h.flag, h.command⟩

/-- The critical time counts from the same start. -/
theorem Alike.setsCritTime (h : Alike s t) (time : ℤ) :
    Alike { s with critTime := s.autoStartTime + time }
      { t with critTime := t.autoStartTime + time } :=
  ⟨h.script, h.step, h.inc, h.critStep, congrArg (· + time) h.start, h.start, h.flag, h.command⟩

/-- What the reset leaves behind may change in either run. -/
theorem Alike.leaves (h : Alike s t) (wait wait' background background' target target' : ℤ) :
    Alike
      { s with waitTime := wait, backgroundWaitTime := background, moveToStep := target }
      { t with waitTime := wait', backgroundWaitTime := background', moveToStep := target' } :=
  ⟨h.script, h.step, h.inc, h.critStep, h.critTime, h.start, h.flag, h.command⟩

/-- The outcomes of the switch are the same but for what the reset leaves behind. -/
structure SameOutcome (o o' : Outcome) : Prop where
  state : Alike o.state o'.state
  calls : o.calls = o'.calls
  raised : o.raised = o'.raised

/-- The switch does the same in alike states whose tests come out the same. -/
theorem runCase_alike (h : Alike s t) (hi : s.incStep = false)
    (hb : s.currCommand = .backgroundDelay →
      (s.backgroundWaitTime = 0 ↔ t.backgroundWaitTime = 0))
    (hw : s.currCommand = .waiting → (s.waitTime ≤ r.commandNow ↔ t.waitTime ≤ r.commandNow)) :
    SameOutcome (runCase r s) (runCase r t) := by
  have hc := h.command hi
  cases s with | mk script step command => ?_
  cases t with | mk script' step' command' => ?_
  obtain rfl : script = script' := h.script
  obtain rfl : step = step' := h.step
  obtain rfl : command = command' := hc
  unfold runCase
  cases command <;> dsimp only
  case drivesForward | drivesTurn | drivesMove =>
    split
    · exact ⟨h.takes _, rfl, rfl⟩
    · exact ⟨h, rfl, rfl⟩
  case drivesSetCoords | ballacqToggle | shooterToggle | shooterSetup | shooterTurret =>
    split
    · exact ⟨h.advances, rfl, rfl⟩
    · exact ⟨h, rfl, rfl⟩
  case drivesLift =>
    unfold liftMove
    dsimp only
    split
    · exact ⟨h.takes _, rfl, rfl⟩
    · exact ⟨h, rfl, rfl⟩
  case drivesStop | drivesDone =>
    refine ⟨?_, rfl, rfl⟩
    split
    · exact h.advances
    · exact h
  case backgroundDelay =>
    have hzero := hb rfl
    split
    · next hset =>
      rw [if_pos (hzero.mp hset)]
      split
      · exact ⟨h, rfl, rfl⟩
      · split
        · exact ⟨(h.leaves ..).advances, rfl, rfl⟩
        · exact ⟨h.leaves .., rfl, rfl⟩
    · next hset =>
      rw [if_neg (mt hzero.mpr hset)]
      exact ⟨h.takes _, rfl, rfl⟩
  case delay =>
    split
    · exact ⟨(h.leaves ..).takes _, rfl, rfl⟩
    · exact ⟨h, rfl, rfl⟩
  case waiting =>
    have hover := hw rfl
    refine ⟨?_, rfl, rfl⟩
    dsimp only
    split
    · next hle =>
      rw [if_pos (hover.mp hle)]
      exact h.advances
    · next hle =>
      rw [if_neg (mt hover.mpr hle)]
      exact h
  case setCritStep =>
    split
    · exact ⟨h, rfl, rfl⟩
    · split
      · exact ⟨((h.setsCrit _).setsCritTime _).advances, rfl, rfl⟩
      · exact ⟨h.setsCrit _, rfl, rfl⟩
  case autoEnd | hold => exact ⟨h.stays rfl, rfl, rfl⟩
  case unknown => exact ⟨(h.takes _).stays rfl, rfl, rfl⟩

theorem Alike.critFires (h : Alike s t) :
    Autonomous.critFires r s = Autonomous.critFires r t := by
  unfold Autonomous.critFires
  rw [h.critTime, h.step, h.critStep]

theorem Alike.backgroundJumps (ht : SameTests r s t) :
    Autonomous.backgroundJumps r s = Autonomous.backgroundJumps r t := by
  unfold Autonomous.backgroundJumps
  rw [← ht.expires]
  cases he : backgroundExpires r s with
  | false => rfl
  | true => rw [ht.target he]

theorem Alike.fetches (h : Alike s t) (ht : SameTests r s t) :
    Autonomous.fetches r s = Autonomous.fetches r t := by
  unfold Autonomous.fetches
  rw [h.critFires, Alike.backgroundJumps ht, h.inc]

theorem Alike.nextStep (h : Alike s t) (ht : SameTests r s t) :
    Autonomous.nextStep r s = Autonomous.nextStep r t := by
  have hb := Alike.backgroundJumps ht
  unfold Autonomous.nextStep
  rw [← hb, h.critFires, h.critStep, h.inc, h.step]
  cases hj : Autonomous.backgroundJumps r s with
  | false => rfl
  | true =>
    have he : backgroundExpires r s = true := by
      simp only [Autonomous.backgroundJumps, Bool.and_eq_true] at hj
      exact hj.1
    rw [ht.target he]

theorem Alike.pendingCommand (h : Alike s t) (ht : SameTests r s t)
    (hf : Autonomous.fetches r s = false) :
    Autonomous.pendingCommand r s = Autonomous.pendingCommand r t := by
  unfold Autonomous.pendingCommand
  rw [← ht.expires, ← Alike.backgroundJumps ht, h.command (fetches_eq_false_iff.mp hf).2.2]

/-- What alike states bring to the checks is alike. -/
theorem Alike.arrived (h : Alike s t) (ht : SameTests r s t) (c : Command) :
    Alike (arrived r s c) (arrived r t c) := by
  refine ⟨h.script, h.nextStep ht, rfl, h.critStep, ?_, h.start, h.flag, fun _ => rfl⟩
  simp only [Autonomous.arrived, landed]
  rw [h.critFires, h.critTime]

theorem guarded_alike (h : Alike s t) (hc : s.currCommand = t.currCommand) (code : ℤ) :
    Alike (guarded code s) (guarded code t) ∧
      (guarded code s).currCommand = (guarded code t).currCommand := by
  have hcmd : (guarded code s).currCommand = (guarded code t).currCommand := by
    simp only [guarded]
    rw [hc, h.script, h.step]
  exact ⟨⟨h.script, h.step, h.inc, h.critStep, h.critTime, h.start, h.flag, fun _ => hcmd⟩, hcmd⟩

/-- Alike states raise alike at the checks. -/
theorem guardStep_alike (h : Alike s t) (hz : s.currentAuto.entry 0 0 = none) :
    ∃ u v, guardStep s = .error u ∧ guardStep t = .error v ∧ Alike u v := by
  have hz' : t.currentAuto.entry 0 0 = none := h.script ▸ hz
  have hif : (s.currStep < 0 ∨ s.currStep ≥ s.currentAuto.length) ↔
      (t.currStep < 0 ∨ t.currStep ≥ t.currentAuto.length) := by rw [h.step, h.script]
  by_cases hn : s.currStep < 0 ∨ s.currStep ≥ s.currentAuto.length
  · refine ⟨{ s with currCommand := .autoEnd }, { t with currCommand := .autoEnd }, ?_, ?_, ?_⟩
    · simp only [guardStep, if_pos hn, hz]
    · simp only [guardStep, if_pos (hif.mp hn), hz']
    · exact ⟨h.script, h.step, h.inc, h.critStep, h.critTime, h.start, h.flag, fun _ => rfl⟩
  · refine ⟨s, t, ?_, ?_, h⟩
    · simp only [guardStep, if_neg hn, hz]
    · simp only [guardStep, if_neg (fun hc => hn (hif.mpr hc)), hz']

/-- The checks and the switch, on what two alike states bring to them. -/
theorem enter_alike (h : Alike s t) (ht : SameTests r s t) {fired : Bool} {row : Option ℤ}
    {c : Command} (hc : ∀ code, s.currentAuto.entry 0 0 = some code →
      (guarded code (arrived r s c)).currCommand = switchCommand r s) :
    (enter r fired row (arrived r s c)).2 = (enter r fired row (arrived r t c)).2 ∧
      Alike (enter r fired row (arrived r s c)).1 (enter r fired row (arrived r t c)).1 := by
  have ha := h.arrived ht c
  cases hz : s.currentAuto.entry 0 0 with
  | none =>
    obtain ⟨u, v, hu, hv, huv⟩ := guardStep_alike ha hz
    unfold enter
    rw [hu, hv]
    exact ⟨rfl, huv⟩
  | some code =>
    have hz' : (arrived r t c).currentAuto.entry 0 0 = some code :=
      (congrArg (fun a : Script => a.entry 0 0) h.script).symm.trans hz
    obtain ⟨hg, hcmd⟩ := guarded_alike ha rfl code
    have hsw := hc code hz
    obtain ⟨hst, hcalls, hraised⟩ := runCase_alike (r := r) hg rfl
      (fun hk => ht.pending (hsw.symm.trans hk)) (fun hk => ht.waiting (hsw.symm.trans hk))
    rw [enter_eq (s := arrived r s c) hz, enter_eq hz', hcmd, hcalls, hraised]
    exact ⟨rfl, hst⟩

/-- An iteration shows the same in alike states whose tests come out the same, and leaves
them alike. -/
theorem execute_alike (h : Alike s t) (ht : SameTests r s t) (hm : r.mode.isEnabled = true)
    (ha : r.mode.isAutonomous = true) :
    (execute r s).2 = (execute r t).2 ∧ Alike (execute r s).1 (execute r t).1 := by
  by_cases hrun : s.runAuto = true
  · rw [execute_of_runs ⟨hm, ha, hrun⟩, execute_of_runs ⟨hm, ha, h.flag ▸ hrun⟩,
      runAuto_eq hm ha, runAuto_eq hm ha, ← h.fetches ht, ← h.nextStep ht, ← h.script,
      ← h.critFires]
    cases hf : fetches r s with
    | true =>
      rw [if_pos rfl, if_pos rfl]
      cases he : s.currentAuto.entry (nextStep r s) 0 with
      | none =>
        refine ⟨rfl, h.script, h.nextStep ht, rfl, h.critStep, ?_, h.start, h.flag,
          fun hc => by simp at hc⟩
        exact (h.arrived ht .autoEnd).critTime
      | some code =>
        refine enter_alike h ht fun z hz => ?_
        rw [guarded_arrived hz (by simp [hf, Script.command_eq_some he])]
        rfl
    | false =>
      rw [if_neg Bool.false_ne_true, if_neg Bool.false_ne_true, ← h.pendingCommand ht hf]
      refine enter_alike h ht fun z hz => ?_
      rw [guarded_arrived hz (by simp [hf])]
      rfl
  · have hidle : ∀ u : AutoState, u.runAuto = s.runAuto → execute r u = (u, {}) := by
      intro u hu
      refine execute_idle (fun hc => hrun (hu ▸ hc.2.2)) (fun hc => ?_)
      have := hc.1
      simp [Mode.isDisabled, show r.mode.enabled = true from hm] at this
    rw [hidle s rfl, hidle t h.flag.symm]
    exact ⟨rfl, h⟩

end Congruence

section Run

variable {s₁ s₂ : AutoState} {r₀ : Reading}

/-- Two resets that see the same leave alike states once the script may run. -/
theorem reset_alike (ha : (reset r₀ s₁).currentAuto = (reset r₀ s₂).currentAuto) :
    Alike (setRunAuto true (reset r₀ s₁)).1 (setRunAuto true (reset r₀ s₂)).1 :=
  ⟨ha, rfl, rfl, rfl, rfl, rfl, rfl, fun hc => by simp [setRunAuto, reset] at hc⟩

theorem sameRun_of_outputs {s t : AutoState} {es : List AutoEvent}
    (h : outputs autoStep s es = outputs autoStep t es) :
    SameRun (trace autoStep s es) (trace autoStep t es) := by
  have hrows : ∀ u, dispatched (trace autoStep u es) =
      (outputs autoStep u es).filterMap Tick.fetched := by
    intro u
    unfold dispatched outputs
    rw [List.filterMap_map]
    rfl
  have hcalls : ∀ u, (trace autoStep u es).map (fun x => x.output.calls) =
      (outputs autoStep u es).map Tick.calls := by
    intro u
    unfold outputs
    rw [List.map_map]
    rfl
  exact ⟨by rw [hrows, hrows, h], by rw [hcalls, hcalls, h]⟩

/-- Two enabled runs after resets that saw the same dispatch the same rows and make the
same calls, as long as each iteration's tests of the leftover fields come out the same. -/
theorem rerun_same (hr : Resets r₀)
    (ha : (execute r₀ s₁).1.currentAuto = (execute r₀ s₂).1.currentAuto) {rs : List Reading}
    (hm : ∀ r ∈ rs, r.mode.isEnabled = true ∧ r.mode.isAutonomous = true)
    (ht : ∀ m ∈ trace (pair autoStep) ((execute r₀ s₁).1, (execute r₀ s₂).1) (enabledRun rs),
      m.input.SameTests m.pre) :
    SameRun (trace autoStep (execute r₀ s₁).1 (enabledRun rs))
      (trace autoStep (execute r₀ s₂).1 (enabledRun rs)) := by
  rw [execute_of_resets hr, execute_of_resets hr] at ha ht ⊢
  refine sameRun_of_outputs (congrArg (List.cons _) ?_)
  let R : AutoState × AutoState → Prop := fun p => Alike p.1 p.2
  let Ok : AutoState × AutoState → AutoEvent → Prop := fun p e =>
    ∃ r, e = .execute r ∧ r ∈ rs ∧ SameTests r p.1 p.2
  have hboth : ∀ p e, R p → Ok p e →
      (autoStep p.1 e).2 = (autoStep p.2 e).2 ∧ R (pair autoStep p e).1 := by
    rintro p e h ⟨r, rfl, hmem, htests⟩
    exact execute_alike h htests (hm r hmem).1 (hm r hmem).2
  have hstep : ∀ p e, R p → Ok p e → R (pair autoStep p e).1 :=
    fun p e h hok => (hboth p e h hok).2
  have hout : ∀ p e, R p → Ok p e → (autoStep p.1 e).2 = (autoStep p.2 e).2 :=
    fun p e h hok => (hboth p e h hok).1
  have h0 : R ((setRunAuto true (reset r₀ s₁)).1, (setRunAuto true (reset r₀ s₂)).1) :=
    reset_alike ha
  refine outputs_eq_of_relation hstep hout h0 fun m hmem => ?_
  obtain ⟨r, hrs, hin⟩ := List.mem_map.mp (input_mem_of_mem hmem)
  have htests := ht m (List.mem_cons_of_mem _ hmem)
  rw [← hin] at htests
  exact ⟨r, hin.symm, hrs, htests⟩

/-- A run interrupted in its waiting row leaves nothing that the next one reads. -/
theorem interrupted_rerun_same :
    let s₂ := final autoStep {} [loads [[0], [95, 500], [9, 1], [99]], .setRunAuto true,
      runsAt 20 false, runsAt 40 false, .setRunAuto false]
    let r₀ : Reading := { mode := .autoDisabled, selected := [[0], [95, 500], [9, 1], [99]] }
    let rs := [readsAt 1000 false, readsAt 1500 false, readsAt 1520 false]
    SameRun (trace autoStep (execute r₀ {}).1 (enabledRun rs))
        (trace autoStep (execute r₀ s₂).1 (enabledRun rs)) ∧
      dispatched (trace autoStep (execute r₀ s₂).1 (enabledRun rs)) = [1, 2] :=
  ⟨rerun_same (by decide) (by decide) (by decide) (by decide), by decide⟩

/-- A run of a shipped script that was aborted while its timer was pending makes the next
run meet the pending timer in row one and end there. -/
theorem tenBallBlue_rerun_differs :
    ¬ ∀ (s₁ s₂ : AutoState) (r₀ : Reading) (rs : List Reading), Reachable s₁ → Reachable s₂ →
      Resets r₀ → (execute r₀ s₁).1.currentAuto = (execute r₀ s₂).1.currentAuto →
      (∀ r ∈ rs, r.mode.isEnabled = true ∧ r.mode.isAutonomous = true) →
      SameRun (trace autoStep (execute r₀ s₁).1 (enabledRun rs))
        (trace autoStep (execute r₀ s₂).1 (enabledRun rs)) := by
  intro h
  have hsame := h {} (final autoStep {} [loads TEN_BALL_BLUE, .setRunAuto true, runsAt 20 true,
    .setRunAuto false]) { mode := .autoDisabled, selected := TEN_BALL_BLUE }
    [readsAt 40 true, readsAt 60 true] ⟨[], rfl⟩ ⟨_, rfl⟩ (by decide) (by decide) (by decide)
  exact absurd hsame.1 (by decide)

end Run

end SparxRobot.Autonomous
