import SparxRobot.Machine.LastWhere
import SparxRobot.Robot.Effect

/-! Stopping autonomous. The robot callbacks run on a thread of their own, so they can come
while the autonomous thread sits in the delay of a `DRIVES_LIFT`; here that case is two
steps of the thread, with the delay between them. -/
namespace SparxRobot.Robot
open Machine Autonomous Drives

variable {R : Type*} [Field R] [LinearOrder R]

/-- The state an iteration brings to the switch; `none` when it does not get there. -/
def entered (r : Reading) (s : AutoState) : Option AutoState :=
  if r.mode.isEnabled && r.mode.isAutonomous && s.runAuto then
    match fetchStep (checkBackground r (checkCrit r { s with autoRun := true })) with
    | .error _ => none
    | .ok fetched => (guardStep fetched).toOption
  else none

/-- The robot, and whether the autonomous thread is in the delay of a `DRIVES_LIFT`. -/
structure SplitState (R : Type*) [Field R] [LinearOrder R] where
  robot : RobotState R := {}
  delayed : Bool := false

abbrev SplitMoment (R : Type*) [Field R] [LinearOrder R] :=
  Moment (SplitState R) (RobotEvent R) Tick

section Split

variable [FloorRing R] [JavaMath R]

/-- The autonomous thread goes on to its next pause: to the end of the lift case from its
delay, otherwise through an iteration or up to that delay. -/
def splitStep : Step (SplitState R) (RobotEvent R) Tick
  | s, .autonomous r w =>
      let whole := robotStep s.robot (.autonomous r w)
      if s.delayed then
        let o := liftMove s.robot.auto
        (⟨performAll r.mode w o.calls { s.robot with auto := o.state }, false⟩,
          { calls := o.calls, raised := o.raised })
      else
        match entered (answered r s.robot.drives) s.robot.auto with
        | some e =>
            if e.currCommand = .drivesLift then
              (⟨{ s.robot with auto := e }, true⟩,
                { whole.2 with calls := [.setTargetType .lift], raised := false })
            else (⟨whole.1, false⟩, whole.2)
        | none => (⟨whole.1, false⟩, whole.2)
  | s, e =>
      let o := robotStep s.robot e
      (⟨o.1, s.delayed⟩, o.2)

/-- An iteration is the case of the state it brings to the switch. -/
theorem execute_of_entered {r : Reading} {s e : AutoState} (h : entered r s = some e) :
    (Autonomous.execute r s).1 = (runCase r e).state ∧
      (Autonomous.execute r s).2.calls = (runCase r e).calls := by
  unfold entered at h
  split at h
  · next hr =>
    have hmode : (r.mode.isEnabled && r.mode.isAutonomous) = true := by
      simp only [Bool.and_eq_true] at hr ⊢
      exact hr.1
    rw [Autonomous.execute, if_pos hr, Autonomous.runAuto, if_pos hmode]
    dsimp only
    generalize fetchStep (checkBackground r (checkCrit r { s with autoRun := true })) = x at h ⊢
    cases x with
    | error left => simp at h
    | ok f =>
      dsimp only [enter] at h ⊢
      generalize guardStep f = y at h ⊢
      cases y with
      | error left => simp [Except.toOption] at h
      | ok g =>
        obtain rfl : g = e := by simpa [Except.toOption] using h
        exact ⟨rfl, rfl⟩
  · simp at h

/-- With nothing in between, the two steps of a lift are one iteration of the robot. -/
theorem splitStep_lift {s : RobotState R} {r : Reading} {w : CallReading R} {e : AutoState}
    (h : entered (answered r s.drives) s.auto = some e) (hl : e.currCommand = .drivesLift) :
    final splitStep ⟨s, false⟩ [.autonomous r w, .autonomous r w] =
      ⟨(robotStep s (.autonomous r w)).1, false⟩ := by
  obtain ⟨hstate, hcalls⟩ := execute_of_entered h
  have hrun : runCase (answered r s.drives) e =
      { liftMove e with calls := .setTargetType .lift :: (liftMove e).calls } := by
    rw [runCase, hl]
  rw [robotStep, hstate, hcalls, hrun]
  simp only [final, splitStep, h, hl, Bool.false_eq_true, ↓reduceIte, performAll_cons]
  rfl

/-- Any other iteration is not split. -/
theorem splitStep_whole {s : RobotState R} {r : Reading} {w : CallReading R}
    (h : ∀ e, entered (answered r s.drives) s.auto = some e → e.currCommand ≠ .drivesLift) :
    splitStep ⟨s, false⟩ (.autonomous r w) =
      (⟨(robotStep s (.autonomous r w)).1, false⟩, (robotStep s (.autonomous r w)).2) := by
  simp only [splitStep, Bool.false_eq_true, ↓reduceIte]
  split
  · next e he => rw [if_neg (h e he)]
  · rfl

end Split

/-- The latest callbacks stopped autonomous: `setRunAuto(false)` has returned, and
`setRunAuto(true)` was not called since. -/
def Stopped (h : List (SplitMoment R)) : Prop :=
  ∃ before m after, h = before ++ m :: after ∧
    (∃ mode w, m.input = .setRunAuto false mode w) ∧
      ∀ z ∈ after, ∀ mode w, z.input ≠ .setRunAuto true mode w

/-- The moment resumes a lift that has a speed to drive at. -/
def ResumesLift (m : SplitMoment R) : Prop :=
  (∃ r w, m.input = .autonomous r w) ∧ m.pre.delayed = true ∧
    ∃ speed, m.pre.robot.auto.currentAuto.entry m.pre.robot.auto.currStep 1 = some speed

theorem Stopped.append {h : List (SplitMoment R)} {m : SplitMoment R}
    (hs : Stopped (h ++ [m])) :
    (∃ mode w, m.input = .setRunAuto false mode w) ∨
      (Stopped h ∧ ∀ mode w, m.input ≠ .setRunAuto true mode w) := by
  obtain ⟨before, x, after, heq, hx, hafter⟩ := hs
  rcases append_singleton_split heq with ⟨-, -, rfl⟩ | ⟨rest, rfl, rfl⟩
  · exact .inl hx
  · exact .inr ⟨⟨before, x, rest, rfl, hx, fun y hy => hafter y (by simp [hy])⟩,
      hafter m (by simp)⟩

section Result

variable [FloorRing R] [JavaMath R]

/-- A run that calls `setRunAuto(false)` and does not start autonomous again. -/
theorem stopped_trace (s : SplitState R) (past rest : List (RobotEvent R)) (mode : Mode)
    (w : CallReading R) (hrest : ∀ e ∈ rest, ∀ mode w, e ≠ .setRunAuto true mode w) :
    Stopped (trace splitStep s (past ++ .setRunAuto false mode w :: rest)) := by
  refine ⟨_, _, _, trace_append splitStep s past _, ⟨mode, w, rfl⟩, fun z hz => ?_⟩
  exact hrest z.input (input_mem_of_mem hz)

/-- The moment's calls put the drives in motion. -/
def StartsMotion (m : SplitMoment R) : Prop :=
  ∃ c ∈ m.output.calls, c.isMotion = true ∧
    (performDrives m.input.callReading c m.pre.robot.drives).2 = true ∧
    (performDrives m.input.callReading c m.pre.robot.drives).1.currentDriveState.isMotion = true

/-- While autonomous is stopped no motion is started. -/
def StopEffective (τ : List (SplitMoment R)) : Prop :=
  ∀ h m t, τ = h ++ m :: t → Stopped h → ¬ StartsMotion m

/-- A lift that resumes while autonomous is stopped finds the drives not done. -/
def LiftsRefused (τ : List (SplitMoment R)) : Prop :=
  ∀ h m t, τ = h ++ m :: t → Stopped h → ResumesLift m →
    isAutoDone m.pre.robot.drives = false

private theorem entered_of_flag_down {r : Reading} {s : AutoState} (hs : s.runAuto = false) :
    entered r s = none := by
  rw [entered, if_neg (by simp [hs])]

/-- While the flag is down the thread does not get into a delay. -/
private theorem splitStep_not_delayed {s : SplitState R} {e : RobotEvent R}
    (hs : s.robot.auto.runAuto = false) (hd : s.delayed = false) :
    (splitStep s e).1.delayed = false := by
  cases e with
  | autonomous r w => simp [splitStep, hd, entered_of_flag_down hs]
  | drives r | shooter r | ballacq r => exact hd
  | setRunAuto auto mode w => exact hd

/-- What a step does while the flag is down: the flag stays down unless a callback raises
it, and the only motion call is that of a lift resumed. -/
private theorem splitStep_flag_down {s : SplitState R} {e : RobotEvent R}
    (hs : s.robot.auto.runAuto = false) :
    ((∀ mode w, e ≠ .setRunAuto true mode w) → (splitStep s e).1.robot.auto.runAuto = false) ∧
      (∀ c ∈ (splitStep s e).2.calls, c.isMotion = true →
        ResumesLift (moment splitStep s e)) := by
  cases e with
  | autonomous r w =>
    have hr : ¬ Autonomous.Runs (answered r s.robot.drives) s.robot.auto := by
      rintro ⟨-, -, hrun⟩
      simp [hs] at hrun
    cases hd : s.delayed with
    | true =>
      cases he : s.robot.auto.currentAuto.entry s.robot.auto.currStep 1 with
      | none => simp [splitStep, hd, liftMove, he, hs]
      | some speed =>
        refine ⟨fun _ => ?_, fun _ _ _ => ⟨⟨r, w, rfl⟩, hd, speed, he⟩⟩
        simp only [splitStep, hd, ↓reduceIte, performAll_auto, liftMove, he]
        exact hs
    | false =>
      have hstep : splitStep s (.autonomous r w) =
          (⟨(robotStep s.robot (.autonomous r w)).1, false⟩,
            (robotStep s.robot (.autonomous r w)).2) := by
        simp [splitStep, hd, entered_of_flag_down hs]
      rw [hstep, robotStep]
      by_cases hn : Autonomous.Resets (answered r s.robot.drives)
      · rw [execute_of_resets hn]
        refine ⟨fun _ => ?_, by simp⟩
        rw [performAll_auto]
        simp only [reset, getCurrentAuto]
        split <;> exact hs
      · rw [execute_idle hr hn]
        exact ⟨fun _ => hs, by simp⟩
  | setRunAuto auto mode w =>
    simp only [splitStep, robotStep, performAll_auto, Autonomous.setRunAuto]
    refine ⟨fun hne => ?_, ?_⟩
    · cases auto with
      | true => exact absurd rfl (hne mode w)
      | false => split <;> rfl
    · split
      · simp [abortCommands, Call.isMotion]
      · simp
  | drives r | shooter r | ballacq r => exact ⟨fun _ => hs, by simp [splitStep, robotStep]⟩

private theorem splitStep_stop (s : SplitState R) (mode : Mode) (w : CallReading R) :
    (splitStep s (.setRunAuto false mode w)).1.robot.auto.runAuto = false := by
  simp only [splitStep, robotStep, performAll_auto, Autonomous.setRunAuto]
  split <;> rfl

private theorem flag_down_of_stopped (s : SplitState R) (events : List (RobotEvent R)) :
    ∀ h m t, trace splitStep s events = h ++ m :: t → Stopped h →
      m.pre.robot.auto.runAuto = false := by
  have hstep : ∀ h s (e : RobotEvent R), (Stopped h → s.robot.auto.runAuto = false) → True →
      Stopped (h ++ [moment splitStep s e]) → (splitStep s e).1.robot.auto.runAuto = false := by
    intro h s e hinv _ hst
    rcases hst.append with ⟨mode, w, he⟩ | ⟨hold, hne⟩
    · rw [moment_input] at he
      rw [he]
      exact splitStep_stop s mode w
    · exact (splitStep_flag_down (hinv hold)).1 hne
  refine (history_invariant hstep ?_ fun _ _ => trivial).1
  rintro ⟨before, x, after, heq, -⟩
  simp at heq

/-- A stop holds until the next start exactly when every lift resumed meanwhile is refused
by the drives. -/
theorem stop_effective_iff (s : SplitState R) (events : List (RobotEvent R)) :
    StopEffective (trace splitStep s events) ↔ LiftsRefused (trace splitStep s events) := by
  have hflag := flag_down_of_stopped s events
  have hmoment : ∀ {h m t}, trace splitStep s events = h ++ m :: t →
      m = moment splitStep m.pre m.input := by
    intro h m t heq
    exact eq_moment_of_mem (by rw [heq]; simp)
  constructor
  · intro heff h m t heq hst hres
    by_contra hdone
    obtain ⟨⟨r, w, hin⟩, hd, speed, hspeed⟩ := hres
    have hcall : Call.moveToLift speed ∈ m.output.calls := by
      rw [hmoment heq, hin]
      simp [splitStep, hd, liftMove, hspeed]
    obtain ⟨hans, -, hput⟩ := performDrives_motion m.input.callReading
      (c := .moveToLift speed) rfl m.pre.robot.drives
    rw [Bool.not_eq_false] at hdone
    exact heff h m t heq hst ⟨_, hcall, rfl, hans.trans hdone, (hput hdone).1⟩
  · rintro hheld h m t heq hst ⟨c, hc, hm, hans, -⟩
    have hdown := hflag h m t heq hst
    have hres : ResumesLift m := by
      rw [hmoment heq] at hc ⊢
      exact (splitStep_flag_down hdown).2 c hc hm
    rw [(performDrives_motion _ hm _).1, hheld h m t heq hst hres] at hans
    simp at hans

/-- A run that is never stopped in a delay resumes no lift while it is stopped. -/
theorem liftsRefused_of_stops_outside_delay (s : SplitState R) (events : List (RobotEvent R))
    (hstop : ∀ m ∈ trace splitStep s events, (∃ mode w, m.input = .setRunAuto false mode w) →
      m.pre.delayed = false) : LiftsRefused (trace splitStep s events) := by
  have hstep : ∀ h s (e : RobotEvent R),
      (Stopped h → s.robot.auto.runAuto = false ∧ s.delayed = false) →
      ((∃ mode w, e = .setRunAuto false mode w) → s.delayed = false) →
      Stopped (h ++ [moment splitStep s e]) →
        (splitStep s e).1.robot.auto.runAuto = false ∧ (splitStep s e).1.delayed = false := by
    intro h s e hinv hok hst
    rcases hst.append with ⟨mode, w, he⟩ | ⟨hold, hne⟩
    · rw [moment_input] at he
      have hd := hok ⟨mode, w, he⟩
      rw [he]
      exact ⟨splitStep_stop s mode w, hd⟩
    · obtain ⟨hr, hd⟩ := hinv hold
      exact ⟨(splitStep_flag_down hr).1 hne, splitStep_not_delayed hr hd⟩
  have hinit : Stopped ([] : List (SplitMoment R)) →
      s.robot.auto.runAuto = false ∧ s.delayed = false := by
    rintro ⟨before, x, after, heq, -⟩
    simp at heq
  rintro h m t heq hst ⟨-, hd, -⟩
  have hnot := ((history_invariant hstep hinit hstop).1 h m t heq hst).2
  simp [hnot] at hd

end Result

/-- A script that drives to the lift. -/
def TO_LIFT : Script := [[0], [4, 20], [99]]

/-- Stopped in the delay, the thread goes on and starts the drive in operator control. -/
theorem stopped_in_delay_moves : ¬ StopEffective (trace splitStep {} (scriptRun ℝ TO_LIFT [20] ++
    [.setRunAuto false .teleopEnabled {}, .drives { mode := .teleopEnabled },
      .autonomous (readsAt 3040 false) {}])) := by
  intro heff
  have hstop := stopped_trace {} (scriptRun ℝ TO_LIFT [20]) [.drives { mode := .teleopEnabled }]
    .teleopEnabled {} (by simp)
  refine heff _ _ [] (trace_append splitStep {} (scriptRun ℝ TO_LIFT [20] ++
    [.setRunAuto false .teleopEnabled {}, .drives { mode := .teleopEnabled }]) _) hstop ?_
  exact ⟨.moveToLift 20, by decide +kernel, rfl, by decide +kernel, by decide +kernel⟩

end SparxRobot.Robot
