import SparxRobot.Autonomous.WellFormed

/-! The two timers and the direction of the script. The critical jump is guarded by the
current step; the background jump is not, and it also overrides a critical jump of the
same iteration. -/
namespace SparxRobot.Autonomous
open Machine

/-- The run never goes back: the step index does not decrease, no row is dispatched twice,
and a critical time that fires dispatches the critical step at once. -/
structure OnlyForward (τ : List AutoMoment) : Prop where
  steps : ∀ x ∈ τ, x.pre.currStep ≤ x.post.currStep
  once : (dispatched τ).Nodup
  crit : ∀ x ∈ τ, x.output.critFired = true → x.output.fetched = some x.pre.critStep

/-- A background timer that goes off in this iteration points ahead of the current step,
and to the critical step when the critical time fires too. -/
def JumpsForward (r : Reading) (s : AutoState) : Prop :=
  backgroundJumps r s = true →
    s.currStep < s.moveToStep ∧ (critFires r s = true → s.moveToStep = s.critStep)

instance (r : Reading) (s : AutoState) : Decidable (JumpsForward r s) := by
  unfold JumpsForward; infer_instance

/-- The condition on an event: it concerns iterations that run. -/
def AutoEvent.JumpsForward (s : AutoState) (e : AutoEvent) : Prop :=
  e.Runs s → Autonomous.JumpsForward e.reading s

instance (s : AutoState) : DecidablePred (AutoEvent.JumpsForward s) := by
  unfold AutoEvent.JumpsForward; infer_instance

section Step

variable {a : Script} {r : Reading} {s : AutoState}

theorem nextStep_forward (h : JumpsForward r s) (hf : fetches r s = true) :
    s.currStep < nextStep r s := by
  unfold nextStep
  split
  · next hb => exact (h hb).1
  · next hb =>
    split
    · next hc => exact (critFires_iff.mp hc).2.1
    · next hc =>
      have hi : s.incStep = true := by simpa [fetches, hb, hc] using hf
      rw [if_pos hi]
      omega

theorem nextStep_crit (h : JumpsForward r s) (hc : critFires r s = true) :
    nextStep r s = s.critStep := by
  unfold nextStep
  split
  · next hb => exact (h hb).2 hc
  · rfl

/-- Once a pending critical jump has a row, a critical time that fires dispatches it. -/
theorem crit_dispatches (wf : a.WellFormed) (hs : Steady a s) (hr : Runs r s)
    (h : JumpsForward r s) (hc : (execute r s).2.critFired = true) :
    (execute r s).2.fetched = some s.critStep := by
  have hfire : critFires r s = true := by
    rw [execute_of_runs hr, runAuto_critFired hr.1 hr.2.1] at hc
    exact hc
  have hn := nextStep_crit h hfire
  have hk : a.HasStep (nextStep r s) := by
    rw [hn]
    exact hs.crit (critFires_iff.mp hfire).2.2
  have hf := fetches_of_critFires hfire
  obtain ⟨c, -, -, heq⟩ := runAuto_fetch wf hs.script hr.1 hr.2.1 hf hk
  rw [execute_of_runs hr, heq]
  exact congrArg some hn

end Step

/-- A steady state ahead of everything its history dispatched. -/
structure Ahead (a : Script) (h : List AutoMoment) (s : AutoState) : Prop where
  steady : Steady a s
  increasing : (dispatched h).Pairwise (· < ·)
  reached : ∀ i ∈ dispatched h, i ≤ s.currStep

section Run

variable {a : Script} {s : AutoState} {events : List AutoEvent}

/-- With forward jumps no event moves the step index back. -/
theorem currStep_forward {e : AutoEvent} (he : ¬ e.Resets) (hj : e.JumpsForward s) :
    s.currStep ≤ (autoStep s e).1.currStep ∧
      ∀ k, (autoStep s e).2.fetched = some k →
        s.currStep < k ∧ (autoStep s e).1.currStep = k := by
  rcases autoStep_cases_of_not_resets (s := s) he with ⟨r, rfl, hr, heq⟩ | ⟨⟨b, b', hu⟩, hi⟩
  · have hjr : JumpsForward r s := hj hr
    rw [heq, runAuto_currStep hr.1 hr.2.1]
    constructor
    · cases hf : fetches r s with
      | true =>
        have := nextStep_forward hjr hf
        omega
      | false =>
        have := nextStep_of_not_fetches hf
        omega
    · intro k hk
      obtain ⟨hf, rfl, -⟩ := runAuto_fetched hr.1 hr.2.1 hk
      exact ⟨nextStep_forward hjr hf, rfl⟩
  · rw [hu, hi.2.2.1]
    exact ⟨Int.le_refl _, fun k hk => by simp at hk⟩

theorem Ahead.step (wf : a.WellFormed) {h : List AutoMoment} (hp : Ahead a h s)
    {e : AutoEvent} (he : ¬ e.Resets) (hj : e.JumpsForward s) :
    Ahead a (h ++ [moment autoStep s e]) (autoStep s e).1 := by
  obtain ⟨hle, hrow⟩ := currStep_forward he hj
  refine ⟨hp.steady.step wf he, ?_, ?_⟩
  · refine dispatched_append_increasing hp.increasing fun k hk i hi => ?_
    have := (hrow k hk).1
    have := hp.reached i hi
    omega
  · intro i hi
    rw [dispatched_append, dispatched_singleton] at hi
    rcases List.mem_append.mp hi with hi | hi
    · have := hp.reached i hi
      omega
    · have hk : (autoStep s e).2.fetched = some i := by simpa using hi
      have := (hrow i hk).2
      omega

/-- Between two resets a well-formed script only moves forward, provided every background
timer that goes off points ahead of the current step, and to the critical step when the
critical time fires in the same iteration. -/
theorem timers_only_forward (wf : a.WellFormed) {r₀ : Reading} {s₀ : AutoState}
    (hr : Resets r₀) (ha : (execute r₀ s₀).1.currentAuto = a)
    (he : ∀ e ∈ events, ¬ e.Resets)
    (hj : ∀ m ∈ trace autoStep (execute r₀ s₀).1 events, m.input.JumpsForward m.pre) :
    OnlyForward (trace autoStep (execute r₀ s₀).1 events) := by
  rw [execute_of_resets hr] at ha hj ⊢
  have h0 : Ahead a [] (reset r₀ s₀) := ⟨Steady.of_reset ha, by simp, by simp⟩
  have hstep : ∀ h s (e : AutoEvent), Ahead a h s → ¬ e.Resets ∧ e.JumpsForward s →
      Ahead a (h ++ [moment autoStep s e]) (autoStep s e).1 :=
    fun h s e hp he => hp.step wf he.1 he.2
  obtain ⟨hpre, hfin⟩ := history_invariant hstep h0
    (fun m hm => ⟨he _ (input_mem_of_mem hm), hj m hm⟩)
  refine ⟨?_, hfin.increasing.imp (fun h => by omega), ?_⟩
  · intro x hx
    have hfor := (currStep_forward (he _ (input_mem_of_mem hx)) (hj x hx)).1
    rw [eq_moment_of_mem hx]
    exact hfor
  · intro x hx hc
    obtain ⟨h, t, heq⟩ := List.append_of_mem hx
    have hs := (hpre h x t heq).steady
    have hout : x.output = (autoStep x.pre x.input).2 :=
      congrArg Moment.output (eq_moment_of_mem hx)
    rw [hout] at hc ⊢
    rcases autoStep_cases_of_not_resets (s := x.pre) (he _ (input_mem_of_mem hx)) with
      ⟨r, hin, hr, -⟩ | ⟨-, hi⟩
    · have hjx := hj x hx
      rw [hin] at hc hjx ⊢
      exact crit_dispatches wf hs hr (hjx hr) hc
    · simp [hi.2.1] at hc

/-- A shipped script whose timer goes off in row five and moves on to row seven. -/
theorem tenBallRed_only_forward :
    let s := (execute { mode := .autoDisabled, selected := TEN_BALL_RED } {}).1
    let τ := trace autoStep s [.setRunAuto true, runsAt 20 true, runsAt 40 true, runsAt 60 true,
      runsAt 80 true, runsAt 600 true, runsAt 10100 true]
    OnlyForward τ ∧ dispatched τ = [1, 2, 3, 4, 7] :=
  ⟨timers_only_forward (Script.wellFormed_of_check (a := TEN_BALL_RED) (by decide)) (by decide)
    (by decide) (by decide) (by decide), by decide⟩

/-- The other shipped script holds at row nine when its timer goes off, and row seven is
dispatched a second time. -/
theorem tenBallBlue_goes_back :
    ¬ ∀ (a : Script) (r₀ : Reading) (s₀ : AutoState) (events : List AutoEvent),
      a.WellFormed → a.BackgroundTargetsValid → Reachable s₀ → Resets r₀ →
      (execute r₀ s₀).1.currentAuto = a → (∀ e ∈ events, ¬ e.Resets) →
      OnlyForward (trace autoStep (execute r₀ s₀).1 events) := by
  intro h
  have hrun := h TEN_BALL_BLUE { mode := .autoDisabled, selected := TEN_BALL_BLUE } {}
    (.setRunAuto true :: (List.replicate 4 (runsAt 20 true) ++
      List.replicate 6 (runsAt 600 true) ++ [runsAt 10100 true]))
    (Script.wellFormed_of_check (by decide)) (Script.backgroundTargetsValid_of_rows (by decide))
    ⟨[], rfl⟩ (by decide) (by decide) (by decide)
  exact absurd hrun.once (by decide)

end Run

end SparxRobot.Autonomous
