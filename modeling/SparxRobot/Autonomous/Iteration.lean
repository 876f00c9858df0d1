import SparxRobot.Autonomous.Execute

/-! What one iteration of `runAuto` can do, said once. `runAuto_eq` names the row an
iteration goes to and the command it brings there; the lemmas on `runCase` say which
fields each case may change. -/
namespace SparxRobot.Autonomous
open Machine

/-- The background timer expires and has a row to go to. -/
def backgroundJumps (r : Reading) (s : AutoState) : Bool :=
  backgroundExpires r s && decide (s.moveToStep ≠ 0)

/-- The iteration fetches a row: a timer jumps, or the last command is finished. -/
def fetches (r : Reading) (s : AutoState) : Bool :=
  critFires r s || backgroundJumps r s || s.incStep

/-- The step index the switch sees. -/
def nextStep (r : Reading) (s : AutoState) : ℤ :=
  if backgroundJumps r s then s.moveToStep
  else if critFires r s then s.critStep
  else if s.incStep then s.currStep + 1 else s.currStep

/-- The command an iteration that fetches nothing brings to the switch. -/
def pendingCommand (r : Reading) (s : AutoState) : Command :=
  if backgroundExpires r s && !backgroundJumps r s then .autoEnd else s.currCommand

/-- The state after the timers and the step index have moved. -/
def landed (r : Reading) (s : AutoState) : AutoState :=
  { s with
    autoRun := true
    critTime := if critFires r s then 0 else s.critTime
    backgroundWaitTime := if backgroundExpires r s then 0 else s.backgroundWaitTime
    currStep := nextStep r s }

/-- The state an iteration brings to the checks, with the command to run. -/
def arrived (r : Reading) (s : AutoState) (c : Command) : AutoState :=
  { landed r s with incStep := false, currCommand := c }

@[simp] theorem landed_currentAuto (r : Reading) (s : AutoState) :
    (landed r s).currentAuto = s.currentAuto := rfl

@[simp] theorem landed_currStep (r : Reading) (s : AutoState) :
    (landed r s).currStep = nextStep r s := rfl

theorem fetches_of_incStep {r : Reading} {s : AutoState} (h : s.incStep = true) :
    fetches r s = true := by simp [fetches, h]

theorem fetches_of_critFires {r : Reading} {s : AutoState} (h : critFires r s = true) :
    fetches r s = true := by simp [fetches, h]

theorem fetches_eq_false_iff {r : Reading} {s : AutoState} :
    fetches r s = false ↔
      critFires r s = false ∧ backgroundJumps r s = false ∧ s.incStep = false := by
  simp [fetches, and_assoc]

/-- A fetch before the row is finished is a timer's. -/
theorem timer_of_fetches {r : Reading} {s : AutoState} (hf : fetches r s = true)
    (hi : s.incStep = false) : critFires r s = true ∨ backgroundJumps r s = true := by
  simpa [fetches, hi] using hf

/-- With nothing to fetch the step index stays. -/
theorem nextStep_of_not_fetches {r : Reading} {s : AutoState} (h : fetches r s = false) :
    nextStep r s = s.currStep := by
  obtain ⟨hc, hb, hi⟩ := fetches_eq_false_iff.mp h
  simp [nextStep, hc, hb, hi]

theorem critFires_iff {r : Reading} {s : AutoState} :
    critFires r s = true ↔
      s.critTime ≤ r.critNow ∧ s.currStep < s.critStep ∧ 0 < s.critTime := by
  simp [critFires, and_assoc]

theorem backgroundJumps_iff {r : Reading} {s : AutoState} :
    backgroundJumps r s = true ↔ s.backgroundWaitTime ≠ 0 ∧
      s.backgroundWaitTime < r.backgroundNow ∧ s.moveToStep ≠ 0 := by
  simp [backgroundJumps, backgroundExpires, and_assoc]

theorem backgroundExpires_eq_false {r : Reading} {s : AutoState}
    (h : s.backgroundWaitTime = 0) : backgroundExpires r s = false := by
  simp [backgroundExpires, h]

theorem backgroundJumps_eq_false {r : Reading} {s : AutoState}
    (h : s.backgroundWaitTime = 0) : backgroundJumps r s = false := by
  simp [backgroundJumps, backgroundExpires_eq_false h]

private theorem checkCrit_eq (r : Reading) (s : AutoState) :
    checkCrit r { s with autoRun := true } =
      { s with
        autoRun := true
        incStep := critFires r s || s.incStep
        currStep := if critFires r s then s.critStep - 1 else s.currStep
        critTime := if critFires r s then 0 else s.critTime } := by
  have hcrit : critFires r { s with autoRun := true } = critFires r s := rfl
  unfold checkCrit
  rw [hcrit]
  cases critFires r s <;> rfl

/-- The timers, in closed form. -/
private theorem timed_eq (r : Reading) (s : AutoState) :
    checkBackground r (checkCrit r { s with autoRun := true }) =
      { landed r s with
        currStep := if fetches r s then nextStep r s - 1 else s.currStep
        incStep := fetches r s
        currCommand := pendingCommand r s } := by
  have hexp : backgroundExpires r (checkCrit r { s with autoRun := true }) =
      backgroundExpires r s := by rw [checkCrit_eq]; rfl
  unfold checkBackground
  rw [hexp, checkCrit_eq]
  cases hb : backgroundExpires r s <;> by_cases hm : s.moveToStep = 0 <;>
    cases hc : critFires r s <;> cases hi : s.incStep <;>
    simp [landed, nextStep, fetches, backgroundJumps, pendingCommand, hb, hm, hc, hi]

/-- An iteration of `runAuto`: it goes to the row `nextStep` names, raises there when a
fetch finds no command, and otherwise enters the checks and the switch. -/
theorem runAuto_eq {r : Reading} {s : AutoState}
    (hm : r.mode.isEnabled = true) (ha : r.mode.isAutonomous = true) :
    runAuto r s =
      if fetches r s then
        match s.currentAuto.entry (nextStep r s) 0 with
        | none =>
            ({ landed r s with incStep := true, currCommand := pendingCommand r s },
              { ran := true, critFired := critFires r s, raised := true })
        | some code =>
            enter r (critFires r s) (some (nextStep r s)) (arrived r s (.ofCode code))
      else enter r (critFires r s) none (arrived r s (pendingCommand r s)) := by
  simp only [runAuto, hm, ha, Bool.and_self, ↓reduceIte, timed_eq]
  cases hf : fetches r s with
  | true =>
    simp only [fetchStep, ↓reduceIte, Int.sub_add_cancel, landed_currentAuto]
    cases s.currentAuto.entry (nextStep r s) 0 <;> rfl
  | false =>
    simp only [fetchStep, Bool.false_eq_true, ↓reduceIte]
    have hn := nextStep_of_not_fetches hf
    simp only [landed, arrived, hn]

/-- The checks keep the command exactly when the step names a row and the script was
read. -/
theorem guardStep_eq {s : AutoState} {code : ℤ} (h : s.currentAuto.entry 0 0 = some code) :
    guardStep s = .ok { s with
      currCommand := if s.currentAuto.HasStep s.currStep ∧ 0 ≤ code then s.currCommand
        else .autoEnd } := by
  by_cases hs : s.currentAuto.HasStep s.currStep
  · have hn : ¬ (s.currStep < 0 ∨ s.currStep ≥ s.currentAuto.length) := by
      obtain ⟨h0, hlt⟩ := hs; omega
    by_cases hc : code < 0
    · simp [guardStep, hn, h, hc, Int.not_le.mpr hc]
    · simp [guardStep, hn, h, hc, Int.not_lt.mp hc, hs]
  · have hn : s.currStep < 0 ∨ s.currStep ≥ s.currentAuto.length := by
      by_contra hcon
      exact hs ⟨by omega, by omega⟩
    by_cases hc : code < 0 <;> simp [guardStep, hn, h, hc, hs]

theorem guardStep_error {s : AutoState} (h : s.currentAuto.entry 0 0 = none) :
    ∃ left, guardStep s = .error left ∧ left.currentAuto = s.currentAuto ∧
      left.currStep = s.currStep ∧ left.incStep = s.incStep := by
  by_cases hn : s.currStep < 0 ∨ s.currStep ≥ s.currentAuto.length <;>
    simp [guardStep, h, hn]

section Frame

variable (r : Reading) (s : AutoState)

private theorem runCase_kept :
    (runCase r s).state.currentAuto = s.currentAuto ∧
      (runCase r s).state.currStep = s.currStep ∧
      (runCase r s).state.autoStartTime = s.autoStartTime ∧
      (runCase r s).state.runAuto = s.runAuto ∧
      (runCase r s).state.autoRun = s.autoRun := by
  unfold runCase liftMove
  cases s.currCommand <;> dsimp only <;> (repeat' split) <;> simp

@[simp] theorem runCase_currentAuto : (runCase r s).state.currentAuto = s.currentAuto :=
  (runCase_kept r s).1

@[simp] theorem runCase_currStep : (runCase r s).state.currStep = s.currStep :=
  (runCase_kept r s).2.1

@[simp] theorem runCase_autoStartTime : (runCase r s).state.autoStartTime = s.autoStartTime :=
  (runCase_kept r s).2.2.1

@[simp] theorem runCase_runAuto : (runCase r s).state.runAuto = s.runAuto :=
  (runCase_kept r s).2.2.2.1

@[simp] theorem runCase_autoRun : (runCase r s).state.autoRun = s.autoRun :=
  (runCase_kept r s).2.2.2.2

/-- Each timer is set by its own command alone. -/
private theorem runCase_timers :
    (s.currCommand ≠ .setCritStep →
      (runCase r s).state.critStep = s.critStep ∧ (runCase r s).state.critTime = s.critTime) ∧
      (s.currCommand ≠ .backgroundDelay →
        (runCase r s).state.backgroundWaitTime = s.backgroundWaitTime ∧
          (runCase r s).state.moveToStep = s.moveToStep) ∧
      (s.currCommand ≠ .delay → (runCase r s).state.waitTime = s.waitTime) := by
  unfold runCase liftMove
  cases hc : s.currCommand <;> dsimp only <;> (repeat' split) <;> simp

theorem runCase_crit (h : s.currCommand ≠ .setCritStep) :
    (runCase r s).state.critStep = s.critStep ∧ (runCase r s).state.critTime = s.critTime :=
  (runCase_timers r s).1 h

theorem runCase_background (h : s.currCommand ≠ .backgroundDelay) :
    (runCase r s).state.backgroundWaitTime = s.backgroundWaitTime ∧
      (runCase r s).state.moveToStep = s.moveToStep :=
  (runCase_timers r s).2.1 h

theorem runCase_wait (h : s.currCommand ≠ .delay) :
    (runCase r s).state.waitTime = s.waitTime :=
  (runCase_timers r s).2.2 h

/-- A case raises exactly when its row is too short, except that a second background
timer is refused before its row is read. -/
theorem runCase_raised_iff :
    (runCase r s).raised = true ↔
      s.currentAuto.width s.currStep < s.currCommand.arity ∧
        ¬ (s.currCommand = .backgroundDelay ∧ s.backgroundWaitTime ≠ 0) := by
  have hnone := fun k => @Script.width_le_of_entry s.currentAuto s.currStep k
  have hsome := fun k v => @Script.lt_width_of_entry s.currentAuto s.currStep k v
  have hread := fun k => Option.eq_none_or_eq_some (s.currentAuto.entry s.currStep k)
  have h1 := hread 1
  have h2 := hread 2
  have h3 := hread 3
  have h4 := hread 4
  unfold runCase liftMove
  cases hc : s.currCommand <;> dsimp only [Command.arity] <;> grind

end Frame

/-- The command the checks let through. -/
def guarded (code : ℤ) (s : AutoState) : AutoState :=
  { s with
    currCommand := if s.currentAuto.HasStep s.currStep ∧ 0 ≤ code then s.currCommand
      else .autoEnd }

theorem enter_eq {r : Reading} {fired : Bool} {row : Option ℤ} {s : AutoState} {code : ℤ}
    (h : s.currentAuto.entry 0 0 = some code) :
    enter r fired row s =
      ((runCase r (guarded code s)).state,
        { ran := true, critFired := fired, fetched := row,
          executed := some (guarded code s).currCommand
          calls := (runCase r (guarded code s)).calls
          raised := (runCase r (guarded code s)).raised }) := by
  unfold enter
  rw [guardStep_eq h]
  rfl

/-- Without a first entry in row zero the checks raise before the switch. -/
theorem enter_raises (r : Reading) (fired : Bool) (row : Option ℤ) {s : AutoState}
    (h : s.currentAuto.entry 0 0 = none) :
    ∃ left : AutoState, enter r fired row s =
        (left, { ran := true, critFired := fired, fetched := row, raised := true }) ∧
      left.currentAuto = s.currentAuto ∧ left.currStep = s.currStep ∧
      left.incStep = s.incStep := by
  obtain ⟨left, hg, hkept⟩ := guardStep_error h
  exact ⟨left, by unfold enter; rw [hg], hkept⟩

@[simp] theorem enter_currStep (r : Reading) (fired : Bool) (row : Option ℤ) (s : AutoState) :
    (enter r fired row s).1.currStep = s.currStep := by
  cases h : s.currentAuto.entry 0 0 with
  | none =>
    obtain ⟨left, he, -, hs, -⟩ := enter_raises r fired row h
    rw [he]
    exact hs
  | some code => rw [enter_eq h]; simp [guarded]

@[simp] theorem enter_currentAuto (r : Reading) (fired : Bool) (row : Option ℤ)
    (s : AutoState) : (enter r fired row s).1.currentAuto = s.currentAuto := by
  cases h : s.currentAuto.entry 0 0 with
  | none =>
    obtain ⟨left, he, hs, -⟩ := enter_raises r fired row h
    rw [he]
    exact hs
  | some code => rw [enter_eq h]; simp [guarded]

@[simp] theorem enter_fetched (r : Reading) (fired : Bool) (row : Option ℤ) (s : AutoState) :
    (enter r fired row s).2.fetched = row := by
  unfold enter
  split <;> rfl

@[simp] theorem enter_ran (r : Reading) (fired : Bool) (row : Option ℤ) (s : AutoState) :
    (enter r fired row s).2.ran = true := by
  unfold enter
  split <;> rfl

@[simp] theorem enter_critFired (r : Reading) (fired : Bool) (row : Option ℤ)
    (s : AutoState) : (enter r fired row s).2.critFired = fired := by
  unfold enter
  split <;> rfl

section Iteration

variable {r : Reading} {s : AutoState}

/-- Whatever else an iteration does, it leaves the step index at `nextStep`. -/
theorem runAuto_currStep (hm : r.mode.isEnabled = true) (ha : r.mode.isAutonomous = true) :
    (runAuto r s).1.currStep = nextStep r s := by
  rw [runAuto_eq hm ha]
  split
  · split <;> simp [arrived]
  · simp [arrived]

theorem runAuto_currentAuto (hm : r.mode.isEnabled = true) (ha : r.mode.isAutonomous = true) :
    (runAuto r s).1.currentAuto = s.currentAuto := by
  rw [runAuto_eq hm ha]
  split
  · split <;> simp [arrived]
  · simp [arrived]

theorem runAuto_ran (hm : r.mode.isEnabled = true) (ha : r.mode.isAutonomous = true) :
    (runAuto r s).2.ran = true := by
  rw [runAuto_eq hm ha]
  split
  · split <;> simp
  · simp

theorem runAuto_critFired (hm : r.mode.isEnabled = true) (ha : r.mode.isAutonomous = true) :
    (runAuto r s).2.critFired = critFires r s := by
  rw [runAuto_eq hm ha]
  split
  · split <;> simp
  · simp

/-- The row shown as fetched is the one the iteration goes to, and it went there. -/
theorem runAuto_fetched (hm : r.mode.isEnabled = true) (ha : r.mode.isAutonomous = true)
    {k : ℤ} (h : (runAuto r s).2.fetched = some k) :
    fetches r s = true ∧ k = nextStep r s ∧ ∃ code, s.currentAuto.entry k 0 = some code := by
  rw [runAuto_eq hm ha] at h
  split at h
  · next hf =>
    split at h
    · simp at h
    · next code he =>
      obtain rfl : nextStep r s = k := by simpa using h
      exact ⟨hf, rfl, code, he⟩
  · simp at h

end Iteration

/-- The iteration runs the body of `runAuto`. -/
def Runs (r : Reading) (s : AutoState) : Prop :=
  r.mode.isEnabled = true ∧ r.mode.isAutonomous = true ∧ s.runAuto = true

instance (r : Reading) (s : AutoState) : Decidable (Runs r s) := by
  unfold Runs; infer_instance

theorem execute_of_runs {r : Reading} {s : AutoState} (h : Runs r s) :
    execute r s = runAuto r s := by
  obtain ⟨hm, ha, hr⟩ := h
  simp [execute, hm, ha, hr]

/-- The command the switch runs, when the fetch finds one. -/
def switchCommand (r : Reading) (s : AutoState) : Command :=
  if s.currentAuto.HasStep (nextStep r s) ∧ 0 ≤ (s.currentAuto.entry 0 0).getD 0 then
    if fetches r s then (s.currentAuto.command (nextStep r s)).getD .autoEnd
    else pendingCommand r s
  else .autoEnd

/-- What the checks make of the command an iteration brings to them. -/
theorem guarded_arrived {r : Reading} {s : AutoState} {code : ℤ} {c : Command}
    (hz : s.currentAuto.entry 0 0 = some code)
    (hc : c = if fetches r s then (s.currentAuto.command (nextStep r s)).getD .autoEnd
      else pendingCommand r s) :
    guarded code (arrived r s c) = arrived r s (switchCommand r s) := by
  subst hc
  simp only [guarded, arrived, switchCommand, hz, Option.getD_some]
  rfl

/-- An iteration of a readable script whose fetch finds a command: it runs that command,
unless the checks put `AUTOEND` in its place. -/
theorem execute_eq {r : Reading} {s : AutoState} (hr : Runs r s) (hz : s.currentAuto.Readable)
    (hrow : fetches r s = true → ∃ c, s.currentAuto.entry (nextStep r s) 0 = some c) :
    execute r s = ((runCase r (arrived r s (switchCommand r s))).state,
      { ran := true, critFired := critFires r s
        fetched := if fetches r s then some (nextStep r s) else none
        executed := some (switchCommand r s)
        calls := (runCase r (arrived r s (switchCommand r s))).calls
        raised := (runCase r (arrived r s (switchCommand r s))).raised }) := by
  obtain ⟨code, hz⟩ := hz
  have hz' : ∀ c, (arrived r s c).currentAuto.entry 0 0 = some code := fun _ => hz
  rw [execute_of_runs hr, runAuto_eq hr.1 hr.2.1]
  cases hf : fetches r s with
  | true =>
    obtain ⟨c, hc⟩ := hrow hf
    have hg : guarded code (arrived r s (.ofCode c)) = arrived r s (switchCommand r s) :=
      guarded_arrived hz (by simp [hf, Script.command_eq_some hc])
    rw [hc, if_pos rfl]
    dsimp only
    rw [enter_eq (hz' _), hg]
    rfl
  | false =>
    have hg : guarded code (arrived r s (pendingCommand r s)) =
        arrived r s (switchCommand r s) := guarded_arrived hz (by simp [hf])
    rw [if_neg Bool.false_ne_true, enter_eq (hz' _), hg]
    rfl

/-- A fetch that finds no command raises, with `incStep` still set. -/
theorem execute_eq_of_missing {r : Reading} {s : AutoState} (hr : Runs r s)
    (hrow : ¬ (fetches r s = true → ∃ c, s.currentAuto.entry (nextStep r s) 0 = some c)) :
    execute r s = ({ landed r s with incStep := true, currCommand := pendingCommand r s },
      { ran := true, critFired := critFires r s, raised := true }) := by
  rw [Classical.not_imp] at hrow
  obtain ⟨hf, hnone⟩ := hrow
  have he : s.currentAuto.entry (nextStep r s) 0 = none := by
    rw [Option.eq_none_iff_forall_ne_some]
    exact fun c hc => hnone ⟨c, hc⟩
  rw [execute_of_runs hr, runAuto_eq hr.1 hr.2.1, if_pos hf, he]

theorem not_runs_of_resets {r : Reading} {s : AutoState} (h : Resets r) : ¬ Runs r s := by
  intro hr
  have h1 := h.1
  rw [Mode.isDisabled, show r.mode.enabled = true from hr.1] at h1
  simp at h1

theorem execute_of_resets {r : Reading} {s : AutoState} (h : Resets r) :
    execute r s = (reset r s, {}) := by
  have hn : ¬ (r.mode.isEnabled && r.mode.isAutonomous && s.runAuto) = true := by
    intro hc
    simp only [Bool.and_eq_true] at hc
    exact not_runs_of_resets (s := s) h ⟨hc.1.1, hc.1.2, hc.2⟩
  rw [execute, if_neg hn, if_pos (by simp [h.1, h.2])]

/-- An iteration that neither runs nor resets changes and shows nothing. -/
theorem execute_idle {r : Reading} {s : AutoState} (hr : ¬ Runs r s) (hn : ¬ Resets r) :
    execute r s = (s, {}) := by
  have h1 : ¬ (r.mode.isEnabled && r.mode.isAutonomous && s.runAuto) = true := by
    intro hc
    simp only [Bool.and_eq_true] at hc
    exact hr ⟨hc.1.1, hc.1.2, hc.2⟩
  have h2 : ¬ (r.mode.isDisabled && r.mode.isAutonomous) = true := by
    intro hc
    exact hn (by simpa [Resets] using hc)
  simp [execute, h1, h2]

/-- An iteration that shows anything ran. -/
theorem runs_of_shown {r : Reading} {s : AutoState} (h : (execute r s).2 ≠ {}) : Runs r s := by
  by_contra hr
  by_cases hn : Resets r
  · exact h (congrArg Prod.snd (execute_of_resets hn))
  · exact h (congrArg Prod.snd (execute_idle hr hn))

end SparxRobot.Autonomous
