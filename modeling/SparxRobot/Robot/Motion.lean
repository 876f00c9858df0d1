import SparxRobot.Machine.LastWhere
import SparxRobot.Robot.Effect

/-! Whether the motion rows of a script reach the drives. `runAuto` ignores the answer of
the command a motion row makes; a row is lost when the drives are still busy with
something the interpreter no longer waits for. -/
namespace SparxRobot.Robot
open Machine Autonomous Drives

variable {R : Type*} [Field R] [LinearOrder R]

/-- The event is an autonomous iteration in the disabled branch. -/
def RobotEvent.Resets : RobotEvent R → Prop
  | .autonomous r _ => Autonomous.Resets r
  | _ => False

instance : DecidablePred (RobotEvent.Resets (R := R))
  | .autonomous r _ => inferInstanceAs (Decidable (Autonomous.Resets r))
  | .drives _ | .shooter _ | .ballacq _ | .setRunAuto .. => inferInstanceAs (Decidable False)

/-- The drives are not done. -/
def Busy (s : RobotState R) : Prop := isAutoDone s.drives = false

/-- The moment dispatched a motion row of the script. -/
def DispatchesMotion (y : RobotMoment R) : Prop :=
  ∃ k c, y.output.fetched = some k ∧ y.pre.auto.currentAuto.command k = some c ∧
    c.isMotion = true

instance (y : RobotMoment R) : Decidable (DispatchesMotion y) :=
  decidable_of_iff ((y.output.fetched.bind y.pre.auto.currentAuto.command).any
    Command.isMotion = true) (by
      simp only [DispatchesMotion, Option.any_eq_true, Option.bind_eq_some_iff]
      grind)

/-- The iteration is due to fetch a motion row. -/
def DueMotion (y : RobotMoment R) : Prop :=
  match y.input with
  | .autonomous r _ => Autonomous.Runs r y.pre.auto ∧ fetches r y.pre.auto = true ∧
      ∃ c, y.pre.auto.currentAuto.command (nextStep r y.pre.auto) = some c ∧ c.isMotion = true
  | _ => False

/-- The moment leaves the row it stands on through `DRIVES_DONE`. -/
def LeavesDone (x : RobotMoment R) : Prop :=
  x.output.fetched = none ∧ x.output.executed = some .drivesDone ∧ x.post.auto.incStep = true

instance (x : RobotMoment R) : Decidable (LeavesDone x) :=
  inferInstanceAs (Decidable (_ ∧ _ ∧ _))

/-- The latest dispatch of a history and what came after it. -/
def lastDispatch (h : List (RobotMoment R)) :
    Option (RobotMoment R × List (RobotMoment R)) :=
  lastWhere (fun x => x.output.fetched.isSome) h

/-- Since the dispatch the drives have been busy until an iteration of theirs ended in
standby. -/
def Completed (d : RobotMoment R) (after : List (RobotMoment R)) : Prop :=
  ∃ u w v, after = u ++ w :: v ∧ (∀ z ∈ d :: u, Busy z.post) ∧ (∃ r, w.input = .drives r) ∧
    w.post.drives.currentDriveState = .standby

/-- The moment moves the interpreter away from the row it stands on, or aborts. -/
def Interrupts (m : RobotMoment R) : Prop :=
  match m.input with
  | .autonomous r _ => Autonomous.Resets r ∨
      (Autonomous.Runs r m.pre.auto ∧
        (critFires r m.pre.auto = true ∨ backgroundJumps r m.pre.auto = true))
  | .setRunAuto auto _ _ => auto = false ∧ m.pre.auto.autoRun = true
  | _ => False

/-- An interruption left the drives busy, and they have been busy ever since. -/
def InterruptedSince (h : List (RobotMoment R)) : Prop :=
  ∃ before m after, h = before ++ m :: after ∧ Interrupts m ∧ ∀ z ∈ m :: after, Busy z.post

section Run

variable [JavaMath R]

/-- The motion command of the moment answered `true`. -/
def Accepted (y : RobotMoment R) : Prop :=
  ∃ c ∈ y.output.calls, c.isMotion = true ∧
    (performDrives y.input.callReading c y.pre.drives).2 = true

/-- No motion row is lost: each is accepted, and left only when that motion is over. -/
structure Performed (τ : List (RobotMoment R)) : Prop where
  accepted : ∀ y ∈ τ, DispatchesMotion y → Accepted y
  completed : ∀ h x t d after, τ = h ++ x :: t → LeavesDone x →
    lastDispatch h = some (d, after) → DispatchesMotion d → Completed d after

/-- No motion row is due while the drives are busy with something that was interrupted,
earlier or by the very iteration. -/
def NothingAbandoned (τ : List (RobotMoment R)) : Prop :=
  ∀ h y t, τ = h ++ y :: t → DueMotion y →
    ¬ InterruptedSince h ∧ (Interrupts y → isAutoDone y.pre.drives = true)

end Run

section History

variable {h : List (RobotMoment R)} {x : RobotMoment R}

theorem InterruptedSince.append (hi : InterruptedSince h) (hx : Busy x.post) :
    InterruptedSince (h ++ [x]) := by
  obtain ⟨before, m, after, rfl, hm, hb⟩ := hi
  refine ⟨before, m, after ++ [x], by simp, hm, ?_⟩
  intro z hz
  rw [← List.cons_append, List.mem_append, List.mem_singleton] at hz
  rcases hz with hz | rfl
  · exact hb z hz
  · exact hx

theorem InterruptedSince.of_interrupts (hm : Interrupts x) (hx : Busy x.post) :
    InterruptedSince (h ++ [x]) :=
  ⟨h, x, [], rfl, hm, by simpa using hx⟩

theorem InterruptedSince.busy (hi : InterruptedSince (h ++ [x])) : Busy x.post := by
  obtain ⟨before, m, after, heq, -, hb⟩ := hi
  apply hb
  rcases append_singleton_split heq with ⟨-, -, rfl⟩ | ⟨rest, rfl, -⟩ <;> simp

theorem lastDispatch_append_dispatch {k : ℤ} (hx : x.output.fetched = some k) :
    lastDispatch (h ++ [x]) = some (x, []) := lastWhere_append_hit (by simp [hx])

theorem lastDispatch_append_other (hx : x.output.fetched = none) :
    lastDispatch (h ++ [x]) = (lastDispatch h).map fun r => (r.1, r.2 ++ [x]) :=
  lastWhere_append_miss (by simp [hx])

/-- From a dispatch on, the drives are still at it, or they have completed it. -/
def Tracked (d : RobotMoment R) (after : List (RobotMoment R)) (s : RobotState R) : Prop :=
  Completed d after ∨ ((∀ z ∈ d :: after, Busy z.post) ∧ Busy s)

theorem Tracked.append {d : RobotMoment R} {after : List (RobotMoment R)}
    (ht : Tracked d after x.pre)
    (hx : Busy x.pre → Busy x.post ∨
      ((∃ r, x.input = .drives r) ∧ x.post.drives.currentDriveState = .standby)) :
    Tracked d (after ++ [x]) x.post := by
  rcases ht with ⟨u, w, v, rfl, hb, hw⟩ | ⟨hb, hpre⟩
  · exact .inl ⟨u, w, v ++ [x], by simp, hb, hw⟩
  · rcases hx hpre with hpost | hdone
    · refine .inr ⟨fun z hz => ?_, hpost⟩
      rw [← List.cons_append, List.mem_append, List.mem_singleton] at hz
      rcases hz with hz | rfl
      · exact hb z hz
      · exact hpost
    · exact .inl ⟨after, x, [], rfl, hb, hdone⟩

end History

section Step

variable [FloorRing R] [JavaMath R] {h : List (RobotMoment R)} {s : RobotState R}

/-- What a history says about the drives: busy drives are waited for or were interrupted,
and the motion row waited for is tracked. -/
structure Watched (h : List (RobotMoment R)) (s : RobotState R) : Prop where
  loaded : Loaded s.auto
  sound : Sound s.drives
  interrupted : InterruptedSince h → Busy s
  attended : Busy s → InterruptedSince h ∨ Attending s.auto
  tracked : s.auto.incStep = false → s.auto.currCommand = .drivesDone →
    ∀ d after, lastDispatch h = some (d, after) → DispatchesMotion d → Accepted d →
      Tracked d after s

/-- An event that leaves the interpreter where it stands. -/
private theorem Watched.carry (hw : Watched h s) {e : RobotEvent R}
    (hauto : Unmoved s.auto (robotStep s e).1.auto)
    (hout : (robotStep s e).2.fetched = none)
    (hsound : Sound (robotStep s e).1.drives)
    (hback : Busy (robotStep s e).1 → Busy s ∨ Interrupts (moment robotStep s e))
    (hforth : Busy s → Busy (robotStep s e).1 ∨
      ((∃ r, e = .drives r) ∧ (robotStep s e).1.drives.currentDriveState = .standby)) :
    Watched (h ++ [moment robotStep s e]) (robotStep s e).1 := by
  obtain ⟨b, b', hu⟩ := hauto
  refine ⟨?_, hsound, fun hi => hi.busy, fun hb => ?_, fun hi hc d after hd hm hacc => ?_⟩
  · obtain ⟨a, ha, hs⟩ := hw.loaded
    rw [hu]
    exact ⟨a, ha, hs.script, hs.phase, hs.crit⟩
  · rcases hback hb with hpre | hint
    · rcases hw.attended hpre with hsince | hatt
      · exact .inl (hsince.append hb)
      · rw [hu]
        exact .inr hatt
    · exact .inl (.of_interrupts hint hb)
  · rw [hu] at hi hc
    rw [lastDispatch_append_other hout] at hd
    obtain ⟨⟨d', after'⟩, hlast, heq⟩ := Option.map_eq_some_iff.mp hd
    obtain ⟨rfl, rfl⟩ := Prod.mk.inj heq
    exact (hw.tracked hi hc d' after' hlast hm hacc).append hforth

private theorem Watched.drives (hw : Watched h s) (r : DrivesReading R) :
    Watched (h ++ [moment robotStep s (.drives r)]) (robotStep s (.drives r)).1 := by
  apply hw.carry (e := .drives r) ⟨_, _, rfl⟩ rfl hw.sound.execute
  · intro hb
    left
    by_contra hdone
    have hd : isAutoDone s.drives = true := by simpa [Busy] using hdone
    have hkept : isAutoDone (Drives.execute r s.drives) = true := execute_done hw.sound hd
    exact absurd hkept (by simpa [Busy, robotStep] using hb)
  · intro hb
    by_cases hpost : Busy (robotStep s (.drives r)).1
    · exact .inl hpost
    · right
      refine ⟨⟨r, rfl⟩, execute_finishes hw.sound hb ?_⟩
      simpa [Busy, robotStep] using hpost

private theorem Watched.setRunAuto (hw : Watched h s) (auto : Bool) (mode : Mode)
    (w : CallReading R) :
    Watched (h ++ [moment robotStep s (.setRunAuto auto mode w)])
      (robotStep s (.setRunAuto auto mode w)).1 := by
  by_cases ha : auto = false ∧ s.auto.autoRun = true
  · have hset : Autonomous.setRunAuto auto s.auto =
        ({ s.auto with runAuto := auto, autoRun := false }, { calls := abortCommands }) := by
      simp [Autonomous.setRunAuto, ha.1, ha.2]
    have hdrives : (robotStep s (.setRunAuto auto mode w)).1.drives = abortAuto s.drives := by
      rw [robotStep, hset]
      rfl
    apply hw.carry
    · rw [robotStep, hset, performAll_auto]
      exact ⟨auto, false, rfl⟩
    · rw [robotStep, hset]
    · rw [hdrives]
      exact Sound.abortAuto
    · exact fun _ => .inr ha
    · intro hb
      left
      rw [Busy, hdrives]
      exact abortAuto_busy hb
  · have hset : Autonomous.setRunAuto auto s.auto = ({ s.auto with runAuto := auto }, {}) := by
      simp only [Autonomous.setRunAuto, Bool.and_eq_true, Bool.not_eq_true', if_neg ha]
    have hstep : robotStep s (.setRunAuto auto mode w) =
        ({ s with auto := { s.auto with runAuto := auto } }, {}) := by
      rw [robotStep, hset]
      rfl
    apply hw.carry <;> rw [hstep]
    · exact ⟨auto, s.auto.autoRun, rfl⟩
    · exact hw.sound
    · exact .inl
    · exact .inl

section Running

variable {r : Reading} {w : CallReading R}

/-- The iteration runs the case of `c`, having fetched `row` or no row. -/
private structure RunsCase (s : RobotState R) (r : Reading) (w : CallReading R) (c : Command)
    (row : Option ℤ) : Prop where
  finished : (runCase (answered r s.drives) (arrived r s.auto c)).raised = false
  auto : (robotStep s (.autonomous r w)).1.auto =
    (runCase (answered r s.drives) (arrived r s.auto c)).state
  drives : (robotStep s (.autonomous r w)).1.drives =
    drivesAfter w (runCase (answered r s.drives) (arrived r s.auto c)).calls s.drives
  fetched : (robotStep s (.autonomous r w)).2.fetched = row
  executed : (robotStep s (.autonomous r w)).2.executed = some c
  calls : (robotStep s (.autonomous r w)).2.calls =
    (runCase (answered r s.drives) (arrived r s.auto c)).calls

private theorem runsCase_of_eq {c : Command} {fired : Bool} {row : Option ℤ}
    (hraised : (runCase (answered r s.drives) (arrived r s.auto c)).raised = false)
    (heq : Autonomous.execute (answered r s.drives) s.auto =
      ((runCase (answered r s.drives) (arrived r s.auto c)).state,
        { ran := true, critFired := fired, fetched := row, executed := some c,
          calls := (runCase (answered r s.drives) (arrived r s.auto c)).calls })) :
    RunsCase s r w c row := by
  refine ⟨hraised, ?_, ?_, ?_, ?_, ?_⟩ <;> rw [robotStep, heq]
  · exact performAll_auto _ _ _ _
  · exact performAll_drives _ _ _ _

/-- Everything a running iteration can do: the case of a fetched row, an exception at the
fetch, or the case of the command it stands on. -/
private theorem running_cases (hl : Loaded s.auto) (hr : Autonomous.Runs r s.auto) :
    (∃ c, fetches r s.auto = true ∧
      s.auto.currentAuto.command (nextStep r s.auto) = some c ∧
      RunsCase s r w c (some (nextStep r s.auto))) ∨
    (fetches r s.auto = true ∧ ¬ s.auto.currentAuto.HasStep (nextStep r s.auto) ∧
      (robotStep s (.autonomous r w)).1.auto.incStep = true ∧
      (robotStep s (.autonomous r w)).1.drives = s.drives ∧
      (robotStep s (.autonomous r w)).2.fetched = none ∧
      (robotStep s (.autonomous r w)).2.executed = none) ∨
    (fetches r s.auto = false ∧ (pendingCommand r s.auto).Lasting ∧
      RunsCase s r w (pendingCommand r s.auto) none) := by
  have hr' : Autonomous.Runs (answered r s.drives) s.auto := hr
  rcases hl.run_cases hr' with ⟨c, hf, hc, hraised, heq⟩ | ⟨hf, hk, heq⟩ |
    ⟨hf, hl, hraised, heq⟩
  · exact .inl ⟨c, hf, hc, runsCase_of_eq hraised heq⟩
  · refine .inr (.inl ⟨hf, hk, ?_, ?_, ?_, ?_⟩) <;> rw [robotStep, heq] <;> rfl
  · exact .inr (.inr ⟨hf, hl, runsCase_of_eq hraised heq⟩)

/-- Busy drives nobody waited for were interrupted before, or are by this fetch. -/
private theorem Watched.fetch_attended (hw : Watched h s) (hr : Autonomous.Runs r s.auto)
    (hf : fetches r s.auto = true) (hpre : Busy s)
    (hpost : Busy (robotStep s (.autonomous r w)).1) :
    InterruptedSince (h ++ [moment robotStep s (.autonomous r w)]) := by
  rcases hw.attended hpre with hsince | ⟨hi, -⟩
  · exact hsince.append hpost
  · exact .of_interrupts (.inr ⟨hr, timer_of_fetches hf hi⟩) hpost

/-- After a case that does not wait for the drives they are as busy as before. -/
private theorem RunsCase.attending_or_busy {c : Command} {row : Option ℤ}
    (hx : RunsCase s r w c row) (hb : Busy (robotStep s (.autonomous r w)).1) :
    Attending (robotStep s (.autonomous r w)).1.auto ∨ (c.engages = false ∧ Busy s) := by
  rw [Busy, hx.drives] at hb
  cases hen : c.engages with
  | true =>
    left
    rw [hx.auto]
    exact attending_of_engages w rfl hen hx.finished hb
  | false =>
    right
    have hsame := drivesAfter_silent w (runCase_silent (r := answered r s.drives)
      (s := arrived r s.auto c) hen) s.drives
    exact ⟨rfl, by rwa [hsame.isAutoDone] at hb⟩

/-- A motion row that is accepted leaves the drives busy. -/
private theorem RunsCase.busy_of_accepted {c : Command} {row : Option ℤ}
    (hx : RunsCase s r w c row) (hm : c.isMotion = true)
    (hacc : Accepted (moment robotStep s (.autonomous r w))) :
    Busy (robotStep s (.autonomous r w)).1 := by
  obtain ⟨call, hcm, hcalls, -⟩ := runCase_motion hm hx.finished
  obtain ⟨call', hmem, hcm', hans⟩ := hacc
  rw [moment_output, hx.calls] at hmem
  obtain rfl : call' = call := by
    rcases hcalls with hcalls | hcalls <;> rw [hcalls] at hmem
    · simpa using hmem
    · rcases List.mem_cons.mp hmem with rfl | hmem
      · simp [Call.isMotion] at hcm'
      · simpa using hmem
  obtain ⟨hanswer, -, hput⟩ := performDrives_motion w hcm s.drives
  obtain ⟨hstate, hready⟩ := hput (hanswer.symm.trans hans)
  have hafter : drivesAfter w (runCase (answered r s.drives) (arrived r s.auto c)).calls
      s.drives = (performDrives w call' s.drives).1 := by
    rcases hcalls with hcalls | hcalls <;> rw [hcalls] <;> rfl
  rw [Busy, hx.drives, hafter, isAutoDone_eq_false]
  refine ⟨fun hstandby => ?_, hready⟩
  rw [hstandby] at hstate
  simp [DriveState.isMotion] at hstate

private theorem Watched.runs (hw : Watched h s) (hr : Autonomous.Runs r s.auto) :
    Watched (h ++ [moment robotStep s (.autonomous r w)])
      (robotStep s (.autonomous r w)).1 := by
  have hsound : Sound (robotStep s (.autonomous r w)).1.drives := by
    rw [robotStep, performAll_drives]
    exact drivesAfter_sound w _ hw.sound
  have hloaded : Loaded (robotStep s (.autonomous r w)).1.auto := by
    rw [robotStep, performAll_auto]
    exact hw.loaded.step (e := .execute (answered r s.drives))
      (fun hn => absurd hr (not_runs_of_resets hn))
  rcases running_cases hw.loaded hr with ⟨c, hf, hc, hx⟩ | ⟨hf, -, hinc, hdrives, -, -⟩ |
    ⟨hf, hl, hx⟩ <;>
    refine ⟨hloaded, hsound, fun hi => hi.busy, fun hb => ?_, fun hi hcmd d after hd hm hacc => ?_⟩
  · rcases hx.attending_or_busy hb with hatt | ⟨-, hpre⟩
    · exact .inr hatt
    · exact .inl (hw.fetch_attended hr hf hpre hb)
  · rw [lastDispatch_append_dispatch hx.fetched] at hd
    obtain ⟨rfl, rfl⟩ := Prod.mk.inj (Option.some.inj hd)
    obtain ⟨k, c', hk, hck, hcm⟩ := hm
    obtain rfl : nextStep r s.auto = k := Option.some.inj (hx.fetched.symm.trans hk)
    obtain rfl : c = c' := Option.some.inj (hc.symm.trans hck)
    have hb := hx.busy_of_accepted hcm hacc
    exact .inr ⟨by simpa using hb, hb⟩
  · have hpre : Busy s := by rwa [Busy, hdrives] at hb
    exact .inl (hw.fetch_attended hr hf hpre hb)
  · simp [hinc] at hi
  · rcases hx.attending_or_busy hb with hatt | ⟨hen, hpre⟩
    · exact .inr hatt
    · rcases hw.attended hpre with hsince | ⟨-, hatt⟩
      · exact .inl (hsince.append hb)
      · unfold pendingCommand at hen
        split at hen
        · simp [Command.engages] at hen
        · rcases hatt with hatt | hatt | hatt <;> simp [hatt, Command.engages] at hen
  · -- only a `DRIVES_DONE` that finds the drives busy stays
    rw [hx.auto] at hi hcmd
    obtain ⟨hset, -⟩ := runCase_lasts hx.finished hi
    have hp : pendingCommand r s.auto = .drivesDone := by
      rw [← hl.settle]
      exact hset.symm.trans hcmd
    have hcurr : s.auto.currCommand = .drivesDone := by
      unfold pendingCommand at hp
      split at hp
      · simp at hp
      · exact hp
    obtain ⟨-, -, hinc⟩ := fetches_eq_false_iff.mp hf
    rw [lastDispatch_append_other hx.fetched] at hd
    obtain ⟨⟨d', after'⟩, hlast, heq⟩ := Option.map_eq_some_iff.mp hd
    obtain ⟨rfl, rfl⟩ := Prod.mk.inj heq
    refine (hw.tracked hinc hcurr d' after' hlast hm hacc).append fun hpre => .inl ?_
    rw [moment_post, Busy, hx.drives, hp]
    exact hpre

end Running

/-- An autonomous iteration that resets the script or does nothing. -/
private theorem Watched.not_runs (hw : Watched h s) {r : Reading} {w : CallReading R}
    (hr : ¬ Autonomous.Runs r s.auto)
    (hwf : Autonomous.Resets r →
      (robotStep s (.autonomous r w)).1.auto.currentAuto.WellFormed) :
    Watched (h ++ [moment robotStep s (.autonomous r w)])
      (robotStep s (.autonomous r w)).1 := by
  have hr' : ¬ Autonomous.Runs (answered r s.drives) s.auto := hr
  by_cases hn : Autonomous.Resets r
  · have hn' : Autonomous.Resets (answered r s.drives) := hn
    have hstep : robotStep s (.autonomous r w) =
        ({ s with auto := reset (answered r s.drives) s.auto }, {}) := by
      rw [robotStep, execute_of_resets hn']
      rfl
    have hmom : (moment robotStep s (.autonomous r w)).post =
        { s with auto := reset (answered r s.drives) s.auto } := congrArg Prod.fst hstep
    have hload := hwf hn
    rw [hstep] at hload ⊢
    refine ⟨⟨_, .inr hload, .of_reset rfl⟩, hw.sound, fun hi => ?_, fun hb => ?_,
      fun hi => ?_⟩
    · have hb := hi.busy
      rwa [hmom] at hb
    · exact .inl (.of_interrupts (.inl hn) (by rwa [hmom]))
    · exact absurd hi (by simp [reset])
  · have hstep : robotStep s (.autonomous r w) = (s, {}) := by
      rw [robotStep, execute_idle hr' hn]
      rfl
    apply hw.carry <;> rw [hstep]
    · exact ⟨s.auto.runAuto, s.auto.autoRun, rfl⟩
    · exact hw.sound
    · exact .inl
    · exact .inl

/-- Every event keeps the watch. -/
theorem Watched.step (hw : Watched h s) {e : RobotEvent R}
    (hwf : e.Resets → (robotStep s e).1.auto.currentAuto.WellFormed) :
    Watched (h ++ [moment robotStep s e]) (robotStep s e).1 := by
  cases e with
  | autonomous r w =>
    by_cases hr : Autonomous.Runs r s.auto
    · exact hw.runs hr
    · exact hw.not_runs hr hwf
  | drives r => exact hw.drives r
  | shooter r => exact hw.carry ⟨_, _, rfl⟩ rfl hw.sound .inl .inl
  | ballacq r => exact hw.carry ⟨_, _, rfl⟩ rfl hw.sound .inl .inl
  | setRunAuto auto mode w => exact hw.setRunAuto auto mode w

omit [FloorRing R] in
theorem Watched.init : Watched [] ({} : RobotState R) where
  loaded := ⟨[], .inl rfl, rfl, .inl rfl, fun hpos => absurd hpos (Int.lt_irrefl _)⟩
  sound := trivial
  interrupted := by
    rintro ⟨before, m, after, heq, -⟩
    simp at heq
  attended := fun hb => absurd hb (by simp [Busy, isAutoDone])
  tracked := fun hi => absurd hi (by simp)

/-- Every script the run loads is well-formed. -/
def LoadsWellFormed (τ : List (RobotMoment R)) : Prop :=
  ∀ m ∈ τ, m.input.Resets → m.post.auto.currentAuto.WellFormed

theorem watched_run {events : List (RobotEvent R)}
    (hwf : LoadsWellFormed (trace robotStep {} events)) :
    ∀ h m t, trace robotStep {} events = h ++ m :: t → Watched h m.pre := by
  have hstep : ∀ h s (e : RobotEvent R), Watched h s →
      (e.Resets → (robotStep s e).1.auto.currentAuto.WellFormed) →
      Watched (h ++ [moment robotStep s e]) (robotStep s e).1 := fun h s e hw => hw.step
  refine (history_invariant hstep Watched.init fun m hm hn => ?_).1
  have hload := hwf m hm hn
  rwa [eq_moment_of_mem hm] at hload

end Step

section Result

variable [FloorRing R] [JavaMath R]

/-- Only an autonomous iteration that runs shows a row or a case. -/
private theorem runs_of_executed {s : RobotState R} {e : RobotEvent R}
    (h : (robotStep s e).2.fetched ≠ none ∨ (robotStep s e).2.executed ≠ none) :
    ∃ r w, e = .autonomous r w ∧ Autonomous.Runs r s.auto := by
  cases e with
  | autonomous r w =>
    refine ⟨r, w, rfl, ?_⟩
    have hr : Autonomous.Runs (answered r s.drives) s.auto := by
      apply runs_of_shown
      intro heq
      rw [robotStep, heq] at h
      simp at h
    exact hr
  | setRunAuto auto mode w =>
    rw [robotStep, Autonomous.setRunAuto] at h
    split at h <;> simp at h
  | drives r | shooter r | ballacq r => simp [robotStep] at h

/-- Over a well-formed script the row due is the row dispatched. -/
private theorem dispatchesMotion_iff {s : RobotState R} {e : RobotEvent R}
    (hl : Loaded s.auto) :
    DispatchesMotion (moment robotStep s e) ↔ DueMotion (moment robotStep s e) := by
  constructor
  · rintro ⟨k, c, hk, hck, hcm⟩
    rw [moment_output] at hk
    obtain ⟨r, w, rfl, hr⟩ := runs_of_executed (s := s) (e := e) (.inl (by simp [hk]))
    rcases running_cases (w := w) hl hr with ⟨c', hf, hc, hx⟩ | ⟨-, -, -, -, hnone, -⟩ |
      ⟨-, -, hx⟩
    · obtain rfl : nextStep r s.auto = k := Option.some.inj (hx.fetched.symm.trans hk)
      exact ⟨hr, hf, c, hck, hcm⟩
    · rw [hnone] at hk
      simp at hk
    · rw [hx.fetched] at hk
      simp at hk
  · intro hd
    cases e with
    | autonomous r w =>
      obtain ⟨hr, hf, c, hck, hcm⟩ := hd
      rcases running_cases (w := w) hl hr with ⟨c', -, -, hx⟩ | ⟨-, hno, -⟩ | ⟨hnf, -⟩
      · exact ⟨nextStep r s.auto, c, hx.fetched, hck, hcm⟩
      · exact absurd (Script.hasStep_of_command hck) hno
      · rw [moment_pre] at hf
        simp [hnf] at hf
    | drives r | shooter r | ballacq r => exact hd.elim
    | setRunAuto auto mode w => exact hd.elim

omit [FloorRing R] [JavaMath R] in
/-- A motion row due before the last one is finished is fetched by a timer. -/
private theorem interrupts_of_due {y : RobotMoment R} (hm : DueMotion y)
    (hi : y.pre.auto.incStep = false) : Interrupts y := by
  unfold DueMotion at hm
  unfold Interrupts
  split at hm
  · next r w hin =>
    obtain ⟨hr, hf, -⟩ := hm
    rw [hin]
    exact .inr ⟨hr, timer_of_fetches hf hi⟩
  · exact hm.elim

/-- A motion row that is due is accepted exactly when the drives are done. -/
private theorem accepted_iff {s : RobotState R} {e : RobotEvent R} (hl : Loaded s.auto)
    (hm : DueMotion (moment robotStep s e)) :
    Accepted (moment robotStep s e) ↔ isAutoDone s.drives = true := by
  cases e with
  | autonomous r w =>
    obtain ⟨hr, hf, c, hck, hcm⟩ := hm
    rcases running_cases (w := w) hl hr with ⟨c', -, hc, hx⟩ | ⟨-, hno, -⟩ | ⟨hnf, -⟩
    · obtain rfl : c' = c := Option.some.inj (hc.symm.trans hck)
      obtain ⟨call, hcall, hcalls, -⟩ := runCase_motion hcm hx.finished
      constructor
      · rintro ⟨call', -, hcm', htrue⟩
        exact (performDrives_motion w hcm' s.drives).1.symm.trans htrue
      · intro hd
        refine ⟨call, ?_, hcall, (performDrives_motion w hcall s.drives).1.trans hd⟩
        rw [moment_output, hx.calls]
        rcases hcalls with hcalls | hcalls <;> rw [hcalls] <;> simp
    · exact absurd (Script.hasStep_of_command hck) hno
    · rw [moment_pre] at hf
      simp [hnf] at hf
  | drives r | shooter r | ballacq r => exact hm.elim
  | setRunAuto auto mode w => exact hm.elim

/-- Leaving through `DRIVES_DONE` means the row was waited for and the drives are done. -/
private theorem leaves_done {s : RobotState R} {e : RobotEvent R} (hl : Loaded s.auto)
    (hx : LeavesDone (moment robotStep s e)) :
    s.auto.incStep = false ∧ s.auto.currCommand = .drivesDone ∧ isAutoDone s.drives = true := by
  obtain ⟨hfetched, hexec, hinc⟩ := hx
  rw [moment_output] at hfetched hexec
  obtain ⟨r, w, rfl, hr⟩ := runs_of_executed (s := s) (e := e) (.inr (by simp [hexec]))
  rcases running_cases (w := w) hl hr with ⟨c, -, -, hx⟩ | ⟨-, -, -, -, -, hnone⟩ | ⟨hf, -, hx⟩
  · rw [hx.fetched] at hfetched
    simp at hfetched
  · rw [hnone] at hexec
    simp at hexec
  · have hp : pendingCommand r s.auto = .drivesDone :=
      Option.some.inj (hx.executed.symm.trans hexec)
    rw [moment_post, hx.auto] at hinc
    obtain ⟨-, -, -, -, -, hdone, -⟩ := runCase_finishes rfl hinc
    refine ⟨(fetches_eq_false_iff.mp hf).2.2, ?_, hdone hp⟩
    unfold pendingCommand at hp
    split at hp
    · simp at hp
    · exact hp

/-- Every motion row of a run from power-on over well-formed scripts is accepted, and left
only when its motion is over, exactly when none is dispatched while the drives are busy
with something that was interrupted. -/
theorem motions_performed_iff (events : List (RobotEvent R))
    (hwf : LoadsWellFormed (trace robotStep {} events)) :
    Performed (trace robotStep {} events) ↔ NothingAbandoned (trace robotStep {} events) := by
  have hwatch := watched_run hwf
  have hmoment : ∀ m ∈ trace robotStep {} events, m = moment robotStep m.pre m.input :=
    fun m => eq_moment_of_mem
  have hmem : ∀ {h m t}, trace robotStep {} events = h ++ m :: t →
      m ∈ trace robotStep {} events := by
    intro h m t heq
    simp [heq]
  constructor
  · intro hp h y t heq hm
    have hw := hwatch h y t heq
    rw [hmoment y (hmem heq)] at hm
    have hacc := hp.accepted y (hmem heq) (by
      rw [hmoment y (hmem heq)]
      exact (dispatchesMotion_iff hw.loaded).mpr hm)
    rw [hmoment y (hmem heq)] at hacc
    have hdone : isAutoDone y.pre.drives = true := (accepted_iff hw.loaded hm).mp hacc
    refine ⟨fun hsince => ?_, fun _ => hdone⟩
    have hbusy : isAutoDone y.pre.drives = false := hw.interrupted hsince
    simp [hdone] at hbusy
  · intro hn
    have haccepted : ∀ y ∈ trace robotStep {} events, DispatchesMotion y → Accepted y := by
      intro y hy hm
      obtain ⟨h, t, heq⟩ := List.append_of_mem hy
      have hw := hwatch h y t heq
      rw [hmoment y hy] at hm ⊢
      have hdue := (dispatchesMotion_iff hw.loaded).mp hm
      obtain ⟨hnot, hjump⟩ := hn h y t heq (by rw [hmoment y hy]; exact hdue)
      rw [accepted_iff hw.loaded hdue]
      by_contra hbusy
      rcases hw.attended (by simpa [Busy] using hbusy) with hsince | ⟨hi, -⟩
      · exact hnot hsince
      · -- the row before was not finished, so a timer fetched this one
        exact hbusy (hjump (interrupts_of_due hdue hi))
    refine ⟨haccepted, fun h x t d after heq hx hlast hm => ?_⟩
    have hw := hwatch h x t heq
    rw [hmoment x (hmem heq)] at hx
    obtain ⟨hi, hc, hdone⟩ := leaves_done hw.loaded hx
    obtain ⟨before, hsplit, -⟩ := lastWhere_split hlast
    have hd : d ∈ trace robotStep {} events := by simp [heq, hsplit]
    rcases hw.tracked hi hc d after hlast hm (haccepted d hd hm) with hcomp | ⟨-, hbusy⟩
    · exact hcomp
    · simp [Busy, hdone] at hbusy

/-- A run is in order when every motion row finds the drives done. -/
theorem nothingAbandoned_of_done {events : List (RobotEvent R)}
    (hwf : LoadsWellFormed (trace robotStep {} events))
    (hdone : ∀ y ∈ trace robotStep {} events, DispatchesMotion y →
      isAutoDone y.pre.drives = true) : NothingAbandoned (trace robotStep {} events) := by
  intro h y t heq hm
  have hy : y ∈ trace robotStep {} events := by simp [heq]
  have hw := watched_run hwf h y t heq
  have hd := hdone y hy (by
    rw [eq_moment_of_mem hy] at hm ⊢
    exact (dispatchesMotion_iff hw.loaded).mpr hm)
  refine ⟨fun hsince => ?_, fun _ => hd⟩
  have hbusy : isAutoDone y.pre.drives = false := hw.interrupted hsince
  simp [hd] at hbusy

theorem loadsWellFormed_of_check {events : List (RobotEvent R)}
    (h : ∀ m ∈ trace robotStep {} events, m.input.Resets →
      m.post.auto.currentAuto.check = true) : LoadsWellFormed (trace robotStep {} events) :=
  fun m hm hn => Script.wellFormed_of_check (h m hm hn)

end Result

/-- `DRIVING_FORWARD`, stopped in its one motion and resumed when the drives stand. -/
def stoppedDrive (R : Type*) [Field R] : List (RobotEvent R) :=
  scriptRun R DRIVING_FORWARD [20, 40] ++ [.setRunAuto false .autoDisabled {}, .drives {},
    .setRunAuto true .autoEnabled {}, .autonomous (readsAt 60 false) {}]

theorem stoppedDrive_performed : LoadsWellFormed (trace robotStep {} (stoppedDrive ℝ)) ∧
    (∃ y ∈ trace robotStep {} (stoppedDrive ℝ), DispatchesMotion y) ∧
      (∃ x ∈ trace robotStep {} (stoppedDrive ℝ), LeavesDone x) ∧
        Performed (trace robotStep {} (stoppedDrive ℝ)) := by
  have hwf : LoadsWellFormed (trace robotStep {} (stoppedDrive ℝ)) :=
    loadsWellFormed_of_check (by decide +kernel)
  exact ⟨hwf, by decide +kernel, by decide +kernel, (motions_performed_iff _ hwf).mpr
    (nothingAbandoned_of_done hwf (by decide +kernel))⟩

/-- Two drives, the second one due at a critical time. -/
def TWO_DRIVES : Script := [[0], [96, 3, 100], [1, 86, 40], [1, -40, 40], [99]]

/-- The critical time comes while the first drive is under way: the second drive is
dispatched, and the drives refuse it. -/
theorem overtakenDrive_loses_row :
    LoadsWellFormed (trace robotStep {} (scriptRun ℝ TWO_DRIVES [20, 40, 200])) ∧
      ¬ Performed (trace robotStep {} (scriptRun ℝ TWO_DRIVES [20, 40, 200])) := by
  refine ⟨loadsWellFormed_of_check (by decide +kernel), fun hp => ?_⟩
  have hlast : ∃ y ∈ trace robotStep {} (scriptRun ℝ TWO_DRIVES [20, 40, 200]),
      DispatchesMotion y ∧ isAutoDone y.pre.drives = false := by decide +kernel
  obtain ⟨y, hy, hm, hbusy⟩ := hlast
  obtain ⟨c, -, hc, hans⟩ := hp.accepted y hy hm
  rw [(performDrives_motion _ hc _).1, hbusy] at hans
  simp at hans

end SparxRobot.Robot
