import SparxRobot.Autonomous.WellFormed

/-! Sequencing of a well-formed script without background timers. The invariant places
the interpreter relative to its own history: which row the latest dispatch put in
progress, whether that row is released, and which critical jump is still pending. -/
namespace SparxRobot.Autonomous
open Machine

/-- What must have happened since `x` dispatched row `i` before its successor may go. -/
structure Released (a : Script) (i : ℤ) (c : Command) (x : AutoMoment)
    (mid : List AutoMoment) : Prop where
  motion : c.isMotion = true →
    ∃ w ∈ mid, w.output.executed = some .drivesDone ∧ w.input.reading.autoDone = true
  delay : c = .delay → ∃ d, a.entry i 1 = some d ∧
    ∃ w ∈ mid, w.output.executed = some .waiting ∧
      x.input.reading.commandNow + d ≤ w.input.reading.commandNow

/-- The latest `SETCRITSTEP` of the history names this row, and no jump came after it. -/
def CritPending (a : Script) (h : List AutoMoment) (target : ℤ) : Prop :=
  ∃ z after k, lastCrit h = some (z, after) ∧ z.output.fetched = some k ∧
    a.command k = some .setCritStep ∧ a.entry k 1 = some target ∧
    ∀ w ∈ after, w.output.critFired = false

/-- The dispatch order of a run: rows increase from row one, each is the released
successor of the one before or the target of a critical jump, and each `SETCRITSTEP`
causes at most one jump. -/
structure Sequenced (a : Script) (τ : List AutoMoment) : Prop where
  increasing : (dispatched τ).Pairwise (· < ·)
  executes : ∀ y ∈ τ, ∀ j, y.output.fetched = some j →
    ∃ c, a.command j = some c ∧ y.output.executed = some c
  first : ∀ h y t j, τ = h ++ y :: t → lastDispatch h = none →
    y.output.fetched = some j → j = 1
  next : ∀ h y t x mid i c j, τ = h ++ y :: t → lastDispatch h = some (x, mid) →
    x.output.fetched = some i → a.command i = some c → y.output.fetched = some j →
    y.output.critFired = false → j = i + 1 ∧ Released a i c x mid
  jump : ∀ h y t, τ = h ++ y :: t → y.output.critFired = true →
    CritPending a h y.pre.critStep ∧ y.output.fetched = some y.pre.critStep ∧
      y.pre.currStep < y.pre.critStep ∧ y.pre.critTime ≤ y.input.reading.critNow

/-- The row in progress, dispatched at `x`: released with a successor, or waiting. -/
structure InRow (a : Script) (c : Command) (x : AutoMoment) (mid : List AutoMoment)
    (s : AutoState) : Prop where
  dispatch : x.output.fetched = some s.currStep
  command : a.command s.currStep = some c
  phase : (s.incStep = true ∧ a.HasStep (s.currStep + 1) ∧ Released a s.currStep c x mid) ∨
    (s.incStep = false ∧ s.currCommand = c.settle ∧ c.settle.Lasting ∧
      (c = .delay → ∃ d, a.entry s.currStep 1 = some d ∧
        s.waitTime = x.input.reading.commandNow + d))

/-- The place of the interpreter after the history `h` that followed a reset. -/
structure Positioned (a : Script) (h : List AutoMoment) (s : AutoState) : Prop where
  script : s.currentAuto = a
  timer : s.backgroundWaitTime = 0
  increasing : (dispatched h).Pairwise (· < ·)
  reached : ∀ i ∈ dispatched h, i ≤ s.currStep
  crit : 0 < s.critTime → CritPending a h s.critStep
  place : (lastDispatch h = none ∧ s.currStep = 0 ∧ s.incStep = true ∧ s.critTime ≤ 0 ∧
      a.HasStep 1) ∨
    ∃ c x mid, lastDispatch h = some (x, mid) ∧ InRow a c x mid s

section Extend

variable {a : Script} {h : List AutoMoment} {x w : AutoMoment} {mid : List AutoMoment}

theorem Released.append {i : ℤ} {c : Command} (hr : Released a i c x mid) (w : AutoMoment) :
    Released a i c x (mid ++ [w]) := by
  constructor
  · intro hm
    obtain ⟨v, hv, hd⟩ := hr.motion hm
    exact ⟨v, List.mem_append_left _ hv, hd⟩
  · intro hd
    obtain ⟨d, he, v, hv, hw⟩ := hr.delay hd
    exact ⟨d, he, v, List.mem_append_left _ hv, hw⟩

theorem CritPending.append {t : ℤ} (hc : CritPending a h t) (hw : setsCrit w = false)
    (hf : w.output.critFired = false) : CritPending a (h ++ [w]) t := by
  obtain ⟨z, after, k, hl, hk, hcmd, ht, hq⟩ := hc
  refine ⟨z, after ++ [w], k, ?_, hk, hcmd, ht, ?_⟩
  · rw [lastCrit_append_other hw, hl]
    rfl
  · intro v hv
    rcases List.mem_append.mp hv with hv | hv
    · exact hq v hv
    · rw [List.mem_singleton.mp hv, hf]

end Extend

section Steps

variable {a : Script} {h : List AutoMoment} {s : AutoState} {r : Reading}

/-- A pending critical jump goes to a row of the script. -/
theorem CritPending.hasStep (wf : a.WellFormed) {t : ℤ} (hc : CritPending a h t) :
    a.HasStep t := by
  obtain ⟨z, after, k, -, -, hcmd, ht, -⟩ := hc
  exact wf.critTarget k t hcmd ht

/-- The step index never leaves the script, and a fetch moves it forward. -/
theorem Positioned.forward (wf : a.WellFormed) (hp : Positioned a h s)
    (hf : fetches r s = true) : a.HasStep (nextStep r s) ∧ s.currStep < nextStep r s := by
  have hb := backgroundJumps_eq_false (r := r) hp.timer
  unfold nextStep
  simp only [hb, Bool.false_eq_true, ↓reduceIte]
  by_cases hc : critFires r s = true
  · obtain ⟨-, hlt, hpos⟩ := critFires_iff.mp hc
    simp only [hc, ↓reduceIte]
    exact ⟨(hp.crit hpos).hasStep wf, hlt⟩
  · have hi : s.incStep = true := by simpa [fetches, hb, hc] using hf
    rw [if_neg hc, if_pos hi]
    rcases hp.place with ⟨-, h0, -, -, h1⟩ | ⟨c, x, mid, -, hrow⟩
    · rw [h0]
      exact ⟨by simpa using h1, by omega⟩
    · rcases hrow.phase with ⟨-, hs, -⟩ | ⟨hn, -⟩
      · exact ⟨hs, by omega⟩
      · simp [hi] at hn

/-- Events that run nothing keep the place. -/
theorem Positioned.idle (hp : Positioned a h s) {w : AutoMoment} {t : AutoState}
    (hu : Unmoved s t) (hw : w.output.Idle) : Positioned a (h ++ [w]) t := by
  obtain ⟨b, b', rfl⟩ := hu
  obtain ⟨-, hfire, hnone, -, -⟩ := hw
  have hdis : dispatched (h ++ [w]) = dispatched h := by
    rw [dispatched_append, dispatched_singleton, hnone]
    simp
  refine ⟨hp.script, hp.timer, ?_, ?_, ?_, ?_⟩
  · rw [hdis]
    exact hp.increasing
  · rw [hdis]
    exact hp.reached
  · intro hpos
    exact (hp.crit hpos).append (setsCrit_eq_false hnone) hfire
  · rw [lastDispatch_append_other (isDispatch_eq_false hnone)]
    rcases hp.place with ⟨hl, hrest⟩ | ⟨c, x, mid, hl, hd, hc, hphase⟩
    · rw [hl]
      exact .inl ⟨rfl, hrest⟩
    · rw [hl]
      refine .inr ⟨c, x, mid ++ [w], rfl, hd, hc, ?_⟩
      rcases hphase with ⟨hi, hs, hr⟩ | hwait
      · exact .inl ⟨hi, hs, hr.append w⟩
      · exact .inr hwait

/-- The row a fetch puts in progress. -/
theorem inRow_of_fetch (wf : a.WellFormed) {c : Command} {x : AutoMoment} {e : AutoState}
    (hx : x.input.reading = r) (hd : x.output.fetched = some e.currStep)
    (hs : e.currentAuto = a) (hi : e.incStep = false) (hcmd : a.command e.currStep = some c)
    (he : e.currCommand = c) (hraised : (runCase r e).raised = false) :
    InRow a c x [] (runCase r e).state := by
  refine ⟨by rw [runCase_currStep]; exact hd, by rw [runCase_currStep]; exact hcmd, ?_⟩
  rw [runCase_currStep]
  cases hinc : (runCase r e).state.incStep with
  | true =>
    obtain ⟨hmot, hdel, hend, hhold, -⟩ := runCase_finishes hi hinc
    rw [he] at hmot hdel hend hhold
    refine .inl ⟨rfl, wf.hasStep_succ hcmd hend hhold, ?_⟩
    exact ⟨fun hm => by simp [hmot] at hm, fun hm => absurd hm hdel⟩
  | false =>
    obtain ⟨hset, hlast⟩ := runCase_lasts hraised hinc
    rw [he] at hset hlast
    refine .inr ⟨rfl, hset, hlast, ?_⟩
    rintro rfl
    obtain ⟨d, hd, hw⟩ := runCase_delay he hraised
    exact ⟨d, by rw [← hs]; exact hd, by rw [hw, hx]⟩

/-- A fetch puts a later row of the script in progress. -/
theorem Positioned.fetch (wf : a.WellFormed) (hnb : a.NoBackgroundDelay)
    (hp : Positioned a h s) (hr : Runs r s) (hf : fetches r s = true) :
    Positioned a (h ++ [moment autoStep s (.execute r)]) (execute r s).1 := by
  obtain ⟨hk, hlt⟩ := hp.forward wf hf
  obtain ⟨c, hcmd, hraised, heq⟩ := runAuto_fetch wf hp.script hr.1 hr.2.1 hf hk
  have hex : execute r s = _ := (execute_of_runs hr).trans heq
  have hout : (moment autoStep s (.execute r)).output = (execute r s).2 := rfl
  rw [hex] at hout ⊢
  have hfetched : (moment autoStep s (.execute r)).output.fetched = some (nextStep r s) := by
    rw [hout]
  have hbg : c ≠ .backgroundDelay := fun hc => hnb _ (hc ▸ hcmd)
  have hstep : (runCase r (arrived r s c)).state.currStep = nextStep r s :=
    runCase_currStep _ _
  refine ⟨by simpa [arrived] using hp.script, ?_, ?_, ?_, ?_, ?_⟩
  · have hback := (runCase_background r (arrived r s c) hbg).1
    rw [hback]
    simpa [arrived, landed] using fun _ => hp.timer
  · refine dispatched_append_increasing hp.increasing fun k hk' i hi => ?_
    rw [hfetched, Option.some.injEq] at hk'
    have := hp.reached i hi
    omega
  · intro i hi
    rw [dispatched_append, dispatched_singleton, hfetched] at hi
    rw [hstep]
    rcases List.mem_append.mp hi with hi | hi
    · have := hp.reached i hi
      omega
    · obtain rfl : i = nextStep r s := by simpa using hi
      exact Int.le_refl _
  · intro hpos
    by_cases hset : c = .setCritStep
    · obtain ⟨ht, -⟩ := runCase_setCritStep hset hraised
      refine ⟨_, [], nextStep r s, lastCrit_append_crit ?_, hfetched, hset ▸ hcmd, ?_, ?_⟩
      · rw [setsCrit, isDispatch_of_fetched hfetched, hout, hset]
        rfl
      · rw [← hp.script]
        exact ht
      · intro w hw
        simp at hw
    · obtain ⟨hcs, hct⟩ := runCase_crit r (arrived r s c) hset
      rw [hct] at hpos
      rw [hcs]
      have hnf : critFires r s = false := by
        by_contra hcon
        rw [Bool.not_eq_false] at hcon
        simp [arrived, landed, hcon] at hpos
      refine (hp.crit ?_).append ?_ ?_
      · simpa [arrived, landed, hnf] using hpos
      · rw [setsCrit, hout]
        simp [hset]
      · rw [hout]
        exact hnf
  · rw [lastDispatch_append_dispatch (isDispatch_of_fetched hfetched)]
    exact .inr ⟨c, _, [], rfl, inRow_of_fetch wf rfl hfetched hp.script rfl hcmd rfl hraised⟩

/-- Without a fetch the row in progress runs on, or is released by what it saw. -/
theorem InRow.wait (wf : a.WellFormed) {c : Command} {x w : AutoMoment}
    {mid : List AutoMoment} (hrow : InRow a c x mid s) (hi : s.incStep = false)
    (hraised : (runCase r (arrived r s s.currCommand)).raised = false)
    (hw : w.input.reading = r) (he : w.output.executed = some s.currCommand)
    (hn : nextStep r s = s.currStep) :
    InRow a c x (mid ++ [w]) (runCase r (arrived r s s.currCommand)).state := by
  obtain ⟨hd, hcmd, hphase⟩ := hrow
  have hstep : (runCase r (arrived r s s.currCommand)).state.currStep = s.currStep := by
    rw [runCase_currStep]
    exact hn
  rcases hphase with ⟨hc, -⟩ | ⟨-, hset, hlast, hdel⟩
  · simp [hi] at hc
  refine ⟨by rw [hstep]; exact hd, by rw [hstep]; exact hcmd, ?_⟩
  rw [hstep]
  cases hinc : (runCase r (arrived r s s.currCommand)).state.incStep with
  | true =>
    obtain ⟨hmot, -, hend, hhold, hwait, hdone, -⟩ := runCase_finishes rfl hinc
    have hcur : (arrived r s s.currCommand).currCommand = c.settle := hset
    rw [hcur] at hmot hend hhold hwait hdone
    refine .inl ⟨rfl, wf.hasStep_succ hcmd ?_ ?_, ?_, ?_⟩
    · rintro rfl
      exact hend rfl
    · rintro rfl
      exact hhold rfl
    · intro hm
      have hsd : c.settle = .drivesDone := Command.settle_of_isMotion hm
      exact ⟨w, by simp, by rw [he, hset, hsd], by rw [hw]; exact hdone hsd⟩
    · rintro rfl
      obtain ⟨d, hd1, hwt⟩ := hdel rfl
      refine ⟨d, hd1, w, by simp, by rw [he, hset]; rfl, ?_⟩
      rw [hw, ← hwt]
      exact hwait rfl
  | false =>
    obtain ⟨hcur, -⟩ := runCase_lasts hraised hinc
    refine .inr ⟨rfl, ?_, hlast, ?_⟩
    · rw [hcur]
      exact (congrArg Command.settle hset).trans hlast.settle
    · intro hc
      obtain ⟨d, hd1, hwt⟩ := hdel hc
      refine ⟨d, hd1, ?_⟩
      have hne : s.currCommand ≠ .delay := by rw [hset, hc]; decide
      rw [runCase_wait r (arrived r s s.currCommand) hne]
      exact hwt

theorem Positioned.pending (wf : a.WellFormed) (hp : Positioned a h s) (hr : Runs r s)
    (hf : fetches r s = false) :
    Positioned a (h ++ [moment autoStep s (.execute r)]) (execute r s).1 := by
  obtain ⟨hnc, -, hi⟩ := fetches_eq_false_iff.mp hf
  have hn := nextStep_of_not_fetches hf
  have hpc : pendingCommand r s = s.currCommand := by
    simp [pendingCommand, backgroundExpires_eq_false hp.timer]
  rcases hp.place with ⟨-, -, hinc, -⟩ | ⟨c, x, mid, hl, hrow⟩
  · simp [hi] at hinc
  have hcur : s.currCommand = c.settle ∧ c.settle.Lasting := by
    rcases hrow.phase with ⟨hinc, -⟩ | ⟨-, hset, hlast, -⟩
    · simp [hi] at hinc
    · exact ⟨hset, hlast⟩
  have hlast : s.currCommand.Lasting := hcur.1 ▸ hcur.2
  obtain ⟨hraised, heq⟩ := runAuto_pending wf hp.script hr.1 hr.2.1 hf
    (Script.hasStep_of_command hrow.command) (hpc ▸ hlast)
  rw [hpc] at hraised heq
  have hex : execute r s = _ := (execute_of_runs hr).trans heq
  have hout : (moment autoStep s (.execute r)).output = (execute r s).2 := rfl
  rw [hex] at hout ⊢
  have hnone : (moment autoStep s (.execute r)).output.fetched = none := by rw [hout]
  have hdis : dispatched (h ++ [moment autoStep s (.execute r)]) = dispatched h := by
    rw [dispatched_append, dispatched_singleton, hnone]
    simp
  have hstep : (runCase r (arrived r s s.currCommand)).state.currStep = s.currStep := by
    rw [runCase_currStep]
    exact hn
  refine ⟨by simpa [arrived] using hp.script, ?_, ?_, ?_, ?_, ?_⟩
  · have hback := (runCase_background r (arrived r s s.currCommand) hlast.ne_backgroundDelay).1
    rw [hback]
    simpa [arrived, landed] using fun _ => hp.timer
  · rw [hdis]
    exact hp.increasing
  · rw [hdis, hstep]
    exact hp.reached
  · intro hpos
    obtain ⟨hcs, hct⟩ := runCase_crit r (arrived r s s.currCommand) hlast.ne_setCritStep
    rw [hct] at hpos
    rw [hcs]
    refine (hp.crit ?_).append (setsCrit_eq_false hnone) (by rw [hout])
    simpa [arrived, landed, hnc] using hpos
  · rw [lastDispatch_append_other (isDispatch_eq_false hnone), hl]
    exact .inr ⟨c, x, mid ++ [_], rfl, hrow.wait wf hi hraised rfl (by rw [hout]) hn⟩

/-- Every event but a reset keeps the place. -/
theorem Positioned.step (wf : a.WellFormed) (hnb : a.NoBackgroundDelay)
    (hp : Positioned a h s) {e : AutoEvent} (he : ¬ e.Resets) :
    Positioned a (h ++ [moment autoStep s e]) (autoStep s e).1 := by
  rcases autoStep_cases_of_not_resets (s := s) he with ⟨r, rfl, hr, -⟩ | ⟨hu, hi⟩
  · cases hf : fetches r s with
    | true => exact hp.fetch wf hnb hr hf
    | false => exact hp.pending wf hr hf
  · exact hp.idle hu hi

/-- The state a reset leaves, when the script has a row to go to. -/
theorem positioned_reset {s₀ : AutoState} (ha : (reset r s₀).currentAuto = a)
    (hb : s₀.backgroundWaitTime = 0) (h1 : a.HasStep 1) : Positioned a [] (reset r s₀) := by
  refine ⟨ha, ?_, by simp, by simp, fun hpos => ?_, .inl ⟨rfl, rfl, rfl, Int.le_refl _, h1⟩⟩
  · unfold reset getCurrentAuto
    split <;> exact hb
  · exact absurd hpos (Int.lt_irrefl _)

end Steps

section OneRow

/-- A script of one row has nothing to dispatch, and every fetch raises. -/
structure Exhausted (s : AutoState) : Prop where
  short : s.currentAuto.length ≤ 1
  timer : s.backgroundWaitTime = 0
  crit : s.critTime ≤ 0
  past : 0 ≤ s.currStep
  inc : s.incStep = true

private theorem entry_of_exhausted {s : AutoState} {r : Reading} (h : Exhausted s) :
    critFires r s = false ∧ s.currentAuto.entry (nextStep r s) 0 = none ∧
      nextStep r s = s.currStep + 1 := by
  have hb := backgroundJumps_eq_false (r := r) h.timer
  have hc : critFires r s = false := by
    by_contra hcon
    rw [Bool.not_eq_false] at hcon
    have := (critFires_iff.mp hcon).2.2
    have := h.crit
    omega
  have hn : nextStep r s = s.currStep + 1 := by simp [nextStep, hb, hc, h.inc]
  refine ⟨hc, ?_, hn⟩
  cases he : s.currentAuto.entry (nextStep r s) 0 with
  | none => rfl
  | some v =>
    have := Script.hasStep_of_entry he
    have := this.2
    have := h.short
    have := h.past
    omega

/-- A one-row script stays exhausted and shows no dispatch and no jump. -/
theorem Exhausted.step {s : AutoState} (h : Exhausted s) {e : AutoEvent} (he : ¬ e.Resets) :
    Exhausted (autoStep s e).1 ∧ (autoStep s e).2.fetched = none ∧
      (autoStep s e).2.critFired = false := by
  rcases autoStep_cases_of_not_resets (s := s) he with ⟨r, rfl, hr, heq⟩ | ⟨hu, hi⟩
  · obtain ⟨hc, hnone, hn⟩ := entry_of_exhausted (r := r) h
    rw [heq, runAuto_fetch_raises hr.1 hr.2.1 (fetches_of_incStep h.inc) hnone]
    refine ⟨⟨h.short, ?_, ?_, ?_, rfl⟩, rfl, hc⟩
    · simpa [landed] using fun _ => h.timer
    · simpa [landed, hc] using h.crit
    · have := h.past
      show 0 ≤ nextStep r s
      omega
  · obtain ⟨b, b', hu⟩ := hu
    rw [hu]
    exact ⟨⟨h.short, h.timer, h.crit, h.past, h.inc⟩, hi.2.2.1, hi.2.1⟩

end OneRow

section Run

variable {a : Script} {s : AutoState} {events : List AutoEvent}

private theorem sequenced_of_quiet {τ : List AutoMoment}
    (h : ∀ y ∈ τ, y.output.fetched = none ∧ y.output.critFired = false) :
    Sequenced a τ := by
  have hd : dispatched τ = [] := by
    rw [List.eq_nil_iff_forall_not_mem]
    intro i hi
    obtain ⟨y, hy, hf⟩ := mem_dispatched.mp hi
    simp [(h y hy).1] at hf
  have hmem : ∀ h' (y : AutoMoment) t, τ = h' ++ y :: t → y ∈ τ := by
    rintro h' y t rfl
    simp
  refine ⟨by simp [hd], ?_, ?_, ?_, ?_⟩
  · intro y hy j hj
    simp [(h y hy).1] at hj
  · intro h' y t j heq _ hj
    simp [(h y (hmem _ _ _ heq)).1] at hj
  · intro h' y t x mid i c j heq _ _ _ hj
    simp [(h y (hmem _ _ _ heq)).1] at hj
  · intro h' y t heq hj
    simp [(h y (hmem _ _ _ heq)).2] at hj

private theorem sequenced_of_exhausted (h : Exhausted s) (he : ∀ e ∈ events, ¬ e.Resets) :
    Sequenced a (trace autoStep s events) := by
  have hstep : ∀ s (e : AutoEvent), Exhausted s → ¬ e.Resets → Exhausted (autoStep s e).1 :=
    fun s e hs he => (hs.step he).1
  have hrun := invariant_of_step hstep h (fun m hm => he _ (input_mem_of_mem hm))
  refine sequenced_of_quiet fun y hy => ?_
  rw [eq_moment_of_mem hy]
  exact ((hrun.1 y hy).1.step (he _ (input_mem_of_mem hy))).2

/-- What a dispatch shows when its state is placed. -/
private theorem fetched_facts (wf : a.WellFormed) {h : List AutoMoment} {e : AutoEvent}
    (hp : Positioned a h s) (he : ¬ e.Resets) {j : ℤ}
    (hj : (autoStep s e).2.fetched = some j) :
    ∃ r, e = .execute r ∧ Runs r s ∧ fetches r s = true ∧ j = nextStep r s ∧
      (autoStep s e).2.critFired = critFires r s ∧
      ∃ c, a.command j = some c ∧ (autoStep s e).2.executed = some c := by
  rcases autoStep_cases_of_not_resets (s := s) he with ⟨r, rfl, hr, heq⟩ | ⟨-, hi⟩
  · rw [heq] at hj ⊢
    obtain ⟨hf, rfl, -⟩ := runAuto_fetched hr.1 hr.2.1 hj
    obtain ⟨c, hcmd, -, hrun⟩ :=
      runAuto_fetch wf hp.script hr.1 hr.2.1 hf (hp.forward wf hf).1
    rw [hrun]
    exact ⟨r, rfl, hr, hf, rfl, rfl, c, hcmd, rfl⟩
  · simp [hi.2.2.1] at hj

private theorem sequenced_of_positioned (wf : a.WellFormed) (hnb : a.NoBackgroundDelay)
    (h0 : Positioned a [] s) (he : ∀ e ∈ events, ¬ e.Resets) :
    Sequenced a (trace autoStep s events) := by
  have hstep : ∀ h s (e : AutoEvent), Positioned a h s → ¬ e.Resets →
      Positioned a (h ++ [moment autoStep s e]) (autoStep s e).1 :=
    fun h s e hp he => hp.step wf hnb he
  obtain ⟨hpos, hfin⟩ := history_invariant hstep h0 (fun m hm => he _ (input_mem_of_mem hm))
  have hat : ∀ h (y : AutoMoment) t, trace autoStep s events = h ++ y :: t →
      Positioned a h y.pre ∧ ¬ y.input.Resets ∧ y.output = (autoStep y.pre y.input).2 := by
    intro h y t heq
    have hy : y ∈ trace autoStep s events := by
      rw [heq]
      simp
    refine ⟨hpos h y t heq, he _ (input_mem_of_mem hy), ?_⟩
    exact congrArg Moment.output (eq_moment_of_mem hy)
  refine ⟨hfin.increasing, ?_, ?_, ?_, ?_⟩
  · intro y hy j hj
    obtain ⟨h, t, heq⟩ := List.append_of_mem hy
    obtain ⟨hp, hn, hout⟩ := hat h y t heq
    rw [hout] at hj ⊢
    obtain ⟨-, -, -, -, -, -, hc⟩ := fetched_facts wf hp hn hj
    exact hc
  · intro h y t j heq hl hj
    obtain ⟨hp, hn, hout⟩ := hat h y t heq
    rw [hout] at hj
    obtain ⟨r, -, -, -, rfl, -⟩ := fetched_facts wf hp hn hj
    rcases hp.place with ⟨-, h0, hi, hct, -⟩ | ⟨c, x, mid, hl', -⟩
    · have hnc : critFires r y.pre = false := by
        by_contra hcon
        rw [Bool.not_eq_false] at hcon
        have := (critFires_iff.mp hcon).2.2
        omega
      simp [nextStep, backgroundJumps_eq_false hp.timer, hnc, hi, h0]
    · simp [hl] at hl'
  · intro h y t x mid i c j heq hl hx hcmd hj hnf
    obtain ⟨hp, hn, hout⟩ := hat h y t heq
    rw [hout] at hj hnf
    obtain ⟨r, -, -, hf, rfl, hfire, -⟩ := fetched_facts wf hp hn hj
    rw [hfire] at hnf
    rcases hp.place with ⟨hl', -⟩ | ⟨c', x', mid', hl', hd, hcmd', hphase⟩
    · simp [hl] at hl'
    rw [hl, Option.some.injEq, Prod.mk.injEq] at hl'
    obtain ⟨rfl, rfl⟩ := hl'
    obtain rfl : i = y.pre.currStep := by simpa [hx] using hd
    obtain rfl : c = c' := by simpa [hcmd] using hcmd'
    have hb := backgroundJumps_eq_false (r := r) hp.timer
    have hi : y.pre.incStep = true := by simpa [fetches, hb, hnf] using hf
    rcases hphase with ⟨-, -, hrel⟩ | ⟨hi', -⟩
    · exact ⟨by simp [nextStep, hb, hnf, hi], hrel⟩
    · simp [hi] at hi'
  · intro h y t heq hfire
    obtain ⟨hp, hn, hout⟩ := hat h y t heq
    rw [hout] at hfire ⊢
    rcases autoStep_cases_of_not_resets (s := y.pre) hn with ⟨r, hin, hr, hrun⟩ | ⟨-, hi⟩
    · rw [hrun, runAuto_critFired hr.1 hr.2.1] at hfire
      obtain ⟨hnow, hlt, hpos⟩ := critFires_iff.mp hfire
      have hf := fetches_of_critFires hfire
      obtain ⟨c, -, -, hfetch⟩ :=
        runAuto_fetch wf hp.script hr.1 hr.2.1 hf (hp.forward wf hf).1
      refine ⟨hp.crit hpos, ?_, hlt, by rw [hin]; exact hnow⟩
      rw [hrun, hfetch]
      simp [nextStep, backgroundJumps_eq_false hp.timer, hfire]
    · simp [hi.2.1] at hfire

/-- Every run of a well-formed script without background timers that starts from the
disabled reset, with no background timer pending, is sequenced, whatever the clocks
and the drives answer and whatever the callbacks do meanwhile. -/
theorem dispatch_sequenced (wf : a.WellFormed) (hnb : a.NoBackgroundDelay) {r₀ : Reading}
    {s₀ : AutoState} (hr : Resets r₀) (hb : s₀.backgroundWaitTime = 0)
    (ha : (execute r₀ s₀).1.currentAuto = a) (he : ∀ e ∈ events, ¬ e.Resets) :
    Sequenced a (trace autoStep (execute r₀ s₀).1 events) := by
  rw [execute_of_resets hr] at ha ⊢
  have htimer : (reset r₀ s₀).backgroundWaitTime = 0 := by
    unfold reset getCurrentAuto
    split <;> exact hb
  by_cases h1 : a.HasStep 1
  · exact sequenced_of_positioned wf hnb (positioned_reset ha hb h1) he
  · have hlen : (reset r₀ s₀).currentAuto.length ≤ 1 := by
      rw [ha]
      by_contra hcon
      exact h1 ⟨by omega, by omega⟩
    exact sequenced_of_exhausted ⟨hlen, htimer, Int.le_refl _, Int.le_refl _, rfl⟩ he

/-- Seven rows of a shipped script, the sixth a motion that takes three iterations. -/
theorem fourtyBallRed_sequenced :
    let s := (execute { mode := .autoDisabled, selected := FOURTY_BALL_RED } {}).1
    let τ := trace autoStep s [.setRunAuto true, runsAt 20 true, runsAt 40 true, runsAt 60 true,
      runsAt 80 true, runsAt 100 true, runsAt 120 true, runsAt 140 false, runsAt 160 true,
      runsAt 180 false]
    Sequenced FOURTY_BALL_RED τ ∧ dispatched τ = [1, 2, 3, 4, 5, 6, 7] :=
  ⟨dispatch_sequenced (Script.wellFormed_of_check (by decide))
    (Script.noBackgroundDelay_of_rows (by decide)) (by decide) (by decide) (by decide)
    (by decide), by decide⟩

end Run

end SparxRobot.Autonomous
