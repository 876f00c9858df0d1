import SparxRobot.Autonomous.WellFormed

/-! Ending autonomous. The decision is only the value of `currCommand`: a pending timer
or a finished row replaces it. The end is final exactly when nothing of that kind is
pending. -/
namespace SparxRobot.Autonomous
open Machine

/-- The four ways an iteration decides to end autonomous. -/
inductive DecidesEnd (r : Reading) (s : AutoState) : Prop
  | endRow (h : (execute r s).2.executed = some .autoEnd)
  | unknownRow (code : ℤ) (h : (execute r s).2.executed = some (.unknown code))
  | secondTimer (h : (execute r s).2.executed = some .backgroundDelay)
      (hb : (landed r s).backgroundWaitTime ≠ 0)
  | zeroTarget (h : backgroundExpires r s = true) (hm : s.moveToStep = 0)

/-- The moment only runs the `AUTOEND` case. -/
def OnlyEnds (x : AutoMoment) : Prop :=
  x.output.ran = true → x.output.fetched = none ∧ x.output.executed = some .autoEnd

/-- Until a reset, whatever happens after this iteration only runs the `AUTOEND` case. -/
def Final (r : Reading) (s : AutoState) : Prop :=
  ∀ events : List AutoEvent, (∀ e ∈ events, ¬ e.Resets) →
    ∀ x ∈ trace autoStep (execute r s).1 events, OnlyEnds x

/-- The commands that end autonomous at the switch. -/
def EndsAtSwitch (c : Command) (timer : ℤ) : Prop :=
  c = .autoEnd ∨ (∃ code, c = .unknown code) ∨ (c = .backgroundDelay ∧ timer ≠ 0)

/-- The iteration ends autonomous at the switch, and leaves no timer that can still move
the script: no critical time ahead of the step, no background timer with a target. -/
structure EndsForGood (r : Reading) (s : AutoState) : Prop where
  readable : s.currentAuto.Readable
  row : fetches r s = true → ∃ code, s.currentAuto.entry (nextStep r s) 0 = some code
  command : EndsAtSwitch (switchCommand r s) (landed r s).backgroundWaitTime
  crit : critFires r s = true ∨ s.critTime ≤ 0 ∨ s.critStep ≤ nextStep r s
  background : backgroundExpires r s = true ∨ s.backgroundWaitTime = 0 ∨ s.moveToStep = 0

/-- Nothing in this state can replace its `AUTOEND`. -/
structure Ended (s : AutoState) : Prop where
  readable : s.currentAuto.Readable
  command : s.currCommand = .autoEnd
  inc : s.incStep = false
  crit : s.critTime ≤ 0 ∨ s.critStep ≤ s.currStep
  background : s.backgroundWaitTime = 0 ∨ s.moveToStep = 0

section Ended

variable {r : Reading} {s : AutoState}

theorem runCase_endsAtSwitch (hi : s.incStep = false)
    (h : EndsAtSwitch s.currCommand s.backgroundWaitTime) :
    (runCase r s).state = { s with currCommand := .autoEnd } := by
  rcases h with h | ⟨code, h⟩ | ⟨h, hb⟩
  · unfold runCase
    simp only [h]
    rw [← hi, ← h]
  · unfold runCase
    simp only [h]
    rw [← hi]
  · unfold runCase
    simp only [h, if_neg hb]

theorem Ended.not_fetches (h : Ended s) : fetches r s = false := by
  refine fetches_eq_false_iff.mpr ⟨?_, ?_, h.inc⟩
  · by_contra hc
    rw [Bool.not_eq_false, critFires_iff] at hc
    have := h.crit
    omega
  · by_contra hb
    rw [Bool.not_eq_false, backgroundJumps_iff] at hb
    have := h.background
    omega

/-- An ended state stays ended and only runs `AUTOEND`. -/
theorem Ended.step (h : Ended s) {e : AutoEvent} (he : ¬ e.Resets) :
    Ended (autoStep s e).1 ∧ OnlyEnds (moment autoStep s e) := by
  rcases autoStep_cases_of_not_resets (s := s) he with ⟨r, rfl, hr, -⟩ | ⟨⟨b, b', hu⟩, hi⟩
  · have hf := h.not_fetches (r := r)
    have hpend : pendingCommand r s = .autoEnd := by
      unfold pendingCommand
      split
      · rfl
      · exact h.command
    have hsw : switchCommand r s = .autoEnd := by
      unfold switchCommand
      simp [hf, hpend]
    have heq : execute r s = _ :=
      execute_eq hr h.readable (fun hc => by simp [hf] at hc)
    have hstate := runCase_endsAtSwitch (r := r) (s := arrived r s (switchCommand r s)) rfl
      (.inl hsw)
    have hn := nextStep_of_not_fetches hf
    constructor
    · show Ended (execute r s).1
      rw [heq, hstate]
      refine ⟨h.readable, rfl, rfl, ?_, ?_⟩
      · have hcrit : critFires r s = false := (fetches_eq_false_iff.mp hf).1
        simpa [arrived, landed, hcrit, hn] using h.crit
      · simp only [arrived, landed]
        split
        · exact .inl rfl
        · exact h.background
    · intro _
      show (execute r s).2.fetched = none ∧ (execute r s).2.executed = some .autoEnd
      rw [heq, hf, hsw]
      exact ⟨rfl, rfl⟩
  · constructor
    · rw [hu]
      exact ⟨h.readable, h.command, h.inc, h.crit, h.background⟩
    · intro hran
      rw [moment_output, hi.1] at hran
      simp at hran

/-- From an ended state every run until the next reset only runs `AUTOEND`. -/
theorem Ended.run (h : Ended s) {events : List AutoEvent} (he : ∀ e ∈ events, ¬ e.Resets) :
    ∀ x ∈ trace autoStep s events, OnlyEnds x := by
  have hstep : ∀ s (e : AutoEvent), Ended s → ¬ e.Resets → Ended (autoStep s e).1 :=
    fun s e hs he => (hs.step he).1
  obtain ⟨hinv, -⟩ := invariant_of_step hstep h (fun m hm => he _ (input_mem_of_mem hm))
  intro x hx
  rw [eq_moment_of_mem hx]
  exact ((hinv x hx).1.step (he _ (input_mem_of_mem hx))).2

end Ended

section Iteration

variable {r : Reading} {s : AutoState}

/-- An iteration that ends for good leaves an ended state. -/
theorem EndsForGood.ended (hr : Runs r s) (h : EndsForGood r s) : Ended (execute r s).1 := by
  rw [execute_eq hr h.readable h.row,
    runCase_endsAtSwitch (s := arrived r s (switchCommand r s)) rfl h.command]
  refine ⟨h.readable, rfl, rfl, ?_, ?_⟩
  · simp only [arrived, landed]
    rcases h.crit with hc | hc | hc
    · left
      simp only [hc, ↓reduceIte, Int.le_refl]
    · left
      split <;> omega
    · exact .inr hc
  · simp only [arrived, landed]
    rcases h.background with hb | hb | hb
    · exact .inl (by rw [hb, if_pos rfl])
    · left
      split
      · rfl
      · exact hb
    · exact .inr hb

/-- The state after the iteration with the script allowed to run. -/
private def resumed (r : Reading) (s : AutoState) : AutoState :=
  { (execute r s).1 with runAuto := true }

/-- A final end also holds of the very next iteration, whatever it reads. -/
private theorem Final.probe (h : Final r s) {q : Reading} (hm : q.mode.isEnabled = true)
    (ha : q.mode.isAutonomous = true) :
    Runs q (resumed r s) ∧ (execute q (resumed r s)).2.fetched = none ∧
      (execute q (resumed r s)).2.executed = some .autoEnd := by
  have hrun : Runs q (resumed r s) := ⟨hm, ha, rfl⟩
  have hres : ∀ e ∈ [AutoEvent.setRunAuto true, .execute q], ¬ e.Resets := by
    intro e he
    rcases List.mem_pair.mp he with rfl | rfl
    · exact id
    · exact fun hc => not_runs_of_resets hc hrun
  have hx := h _ hres (moment autoStep (resumed r s) (.execute q))
    (by simp [trace, autoStep, setRunAuto, resumed])
  refine ⟨hrun, hx ?_⟩
  show (execute q (resumed r s)).2.ran = true
  rw [execute_of_runs hrun]
  exact runAuto_ran hm ha

/-- An iteration that fetches shows the row, or raises before the switch. -/
private theorem not_onlyEnds_of_fetches (hr : Runs r s) (hf : fetches r s = true) :
    ¬ ((execute r s).2.fetched = none ∧ (execute r s).2.executed = some .autoEnd) := by
  rintro ⟨hn, he⟩
  by_cases hrow : fetches r s = true → ∃ c, s.currentAuto.entry (nextStep r s) 0 = some c
  · obtain ⟨c, hc⟩ := hrow hf
    rw [execute_of_runs hr, runAuto_eq hr.1 hr.2.1, if_pos hf, hc] at hn
    simp at hn
  · rw [execute_eq_of_missing hr hrow] at he
    simp at he

private theorem readable_of_executed (hr : Runs r s) {c : Command}
    (h : (execute r s).2.executed = some c) : s.currentAuto.Readable := by
  by_cases hrow : fetches r s = true → ∃ c, s.currentAuto.entry (nextStep r s) 0 = some c
  · cases hz : s.currentAuto.entry 0 0 with
    | some code => exact ⟨code, hz⟩
    | none =>
      have hraise : ∀ fired row c', (enter r fired row (arrived r s c')).2.executed = none := by
        intro fired row c'
        obtain ⟨left, he, -⟩ := enter_raises r fired row (s := arrived r s c') hz
        rw [he]
      rw [execute_of_runs hr, runAuto_eq hr.1 hr.2.1] at h
      cases hf : fetches r s with
      | true =>
        obtain ⟨k, hk⟩ := hrow hf
        rw [if_pos hf, hk] at h
        simp [hraise] at h
      | false =>
        rw [if_neg (by simp [hf]), hraise] at h
        simp at h
  · rw [execute_eq_of_missing hr hrow] at h
    simp at h

/-- A case that does not end autonomous and keeps its row leaves another command. -/
private theorem runCase_goes_on (hi : (runCase r s).state.incStep = false)
    (hs : s.incStep = false) (h : ¬ EndsAtSwitch s.currCommand s.backgroundWaitTime) :
    (runCase r s).state.currCommand ≠ .autoEnd := by
  revert hi h
  unfold runCase liftMove EndsAtSwitch
  cases hc : s.currCommand <;> dsimp only <;> (repeat' split) <;> simp_all

private theorem guard_of_ne_autoEnd (h : switchCommand r s ≠ .autoEnd) :
    s.currentAuto.HasStep (nextStep r s) ∧ 0 ≤ (s.currentAuto.entry 0 0).getD 0 := by
  by_contra hc
  exact h (if_neg hc)

/-- An end is final exactly when the iteration ends autonomous at the switch and leaves
no timer that can move the script. -/
theorem final_iff_endsForGood (hr : Runs r s) : Final r s ↔ EndsForGood r s := by
  constructor
  · intro h
    have hquiet : ∀ q : Reading, q.mode.isEnabled = true → q.mode.isAutonomous = true →
        fetches q (resumed r s) = false := by
      intro q hm ha
      obtain ⟨hrun, hshow⟩ := h.probe hm ha
      by_contra hf
      exact not_onlyEnds_of_fetches hrun (by simpa using hf) hshow
    have hscript : (resumed r s).currentAuto = s.currentAuto := by
      show (execute r s).1.currentAuto = _
      rw [execute_of_runs hr, runAuto_currentAuto hr.1 hr.2.1]
    obtain ⟨hrun, -, hex⟩ := h.probe hr.1 hr.2.1
    have hz : s.currentAuto.Readable := hscript ▸ readable_of_executed hrun hex
    have hinc : (resumed r s).incStep = false :=
      (fetches_eq_false_iff.mp (hquiet r hr.1 hr.2.1)).2.2
    have hrow : fetches r s = true →
        ∃ c, s.currentAuto.entry (nextStep r s) 0 = some c := by
      by_contra hrow
      simp [resumed, execute_eq_of_missing hr hrow] at hinc
    have heq := execute_eq hr hz hrow
    have hstep : (resumed r s).currStep = nextStep r s := by
      show (execute r s).1.currStep = _
      rw [execute_of_runs hr, runAuto_currStep hr.1 hr.2.1]
    have hcmd : EndsAtSwitch (switchCommand r s) (landed r s).backgroundWaitTime := by
      by_contra hcmd
      have hne : (resumed r s).currCommand ≠ .autoEnd := by
        have hgo := runCase_goes_on (r := r) (s := arrived r s (switchCommand r s))
          (by simpa [resumed, heq] using hinc) rfl hcmd
        simpa [resumed, heq] using hgo
      -- a clock at which the background timer, if there is one, has not passed
      let q : Reading := { r with backgroundNow := (resumed r s).backgroundWaitTime }
      obtain ⟨hrunq, -, hexq⟩ := h.probe (q := q) hr.1 hr.2.1
      have hfq := hquiet q hr.1 hr.2.1
      have hpend : pendingCommand q (resumed r s) = (resumed r s).currCommand := by
        simp [pendingCommand, backgroundExpires, q]
      have hguard := guard_of_ne_autoEnd (fun hc => hcmd (.inl hc))
      have hsw : switchCommand q (resumed r s) = (resumed r s).currCommand := by
        unfold switchCommand
        rw [nextStep_of_not_fetches hfq, hstep, hscript, if_pos hguard, hfq, hpend]
        rfl
      rw [execute_eq hrunq (hscript ▸ hz) (fun hc => by simp [hfq] at hc), hsw] at hexq
      exact hne (by simpa using hexq)
    have hstate : (execute r s).1 =
        { arrived r s (switchCommand r s) with currCommand := .autoEnd } := by
      rw [heq]
      exact runCase_endsAtSwitch rfl hcmd
    refine ⟨hz, hrow, hcmd, ?_, ?_⟩
    · by_contra hcrit
      simp only [not_or, Bool.not_eq_true, Int.not_le] at hcrit
      obtain ⟨hnf, hpos, hlt⟩ := hcrit
      have hq := hquiet { r with critNow := max r.critNow s.critTime } hr.1 hr.2.1
      have htime : (resumed r s).critTime = s.critTime := by
        simp [resumed, hstate, arrived, landed, hnf]
      have htarget : (resumed r s).critStep = s.critStep := by
        simp [resumed, hstate, arrived, landed]
      have hfires := critFires_iff.not.mp (by rw [(fetches_eq_false_iff.mp hq).1]; decide)
      rw [htime, htarget, hstep] at hfires
      exact hfires ⟨Int.le_max_right _ _, hlt, hpos⟩
    · by_contra hback
      simp only [not_or, Bool.not_eq_true] at hback
      obtain ⟨hne, hb, hm⟩ := hback
      have hq := hquiet { r with backgroundNow := s.backgroundWaitTime + 1 } hr.1 hr.2.1
      have hj := (fetches_eq_false_iff.mp hq).2.1
      simp [backgroundJumps, backgroundExpires, resumed, hstate, arrived, landed] at hj hne
      omega
  · intro h events he
    exact (h.ended hr).run he

end Iteration

section Decision

variable {r : Reading} {s : AutoState}

/-- A decision to end autonomous is final exactly when it is carried out by the switch of
that iteration and no timer is left that can still move the script. -/
theorem end_decision_final_iff (hr : Runs r s) :
    (DecidesEnd r s → Final r s) ↔ (DecidesEnd r s → EndsForGood r s) :=
  imp_congr_right fun _ => final_iff_endsForGood hr

/-- The documented script that drives forward ends for good. -/
theorem drivingForward_end_final :
    Final (readsAt 80 true) (final autoStep {} [loads DRIVING_FORWARD, .setRunAuto true,
      runsAt 20 true, runsAt 40 false, runsAt 60 true]) :=
  (end_decision_final_iff (by decide)).mpr
    (fun _ => ⟨by decide, fun _ => ⟨99, by decide⟩, .inl (by decide), .inr (.inl (by decide)),
      .inr (.inl (by decide))⟩) (.endRow (by decide))

/-- A second background timer ends autonomous for safety, and the first one then goes on
with its row. -/
theorem second_timer_goes_on :
    ¬ ∀ (s : AutoState) (r : Reading), Reachable s → Runs r s → DecidesEnd r s → Final r s := by
  intro h
  have hfin := h (final autoStep {} [loads [[0], [94, 100, 4], [94, 100, 4], [99], [7, 1, 1],
    [99]], .setRunAuto true, runsAt 20 true]) (readsAt 40 true) ⟨_, rfl⟩ (by decide)
    (.secondTimer (by decide) (by decide))
  have hx := hfin [runsAt 200 true] (by decide) _ (List.mem_singleton.mpr rfl)
  exact absurd (hx (by decide)).1 (by decide)

end Decision

end SparxRobot.Autonomous
