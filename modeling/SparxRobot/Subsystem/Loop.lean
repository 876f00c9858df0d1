import SparxRobot.Java.Double
import SparxRobot.Java.Long
import SparxRobot.Machine.Run

/-! The loop every subsystem runs in its own thread: what it calls, what it logs, and how
long it sleeps. `init`, `liveWindow`, `update` and `writeLog` are taken to return. What the
source keeps in a double is rounded to one here, at each operation. -/
namespace SparxRobot.Subsystem
open Machine

/-- A `GenericSubsystem`: what it is constructed with and what it overrides. -/
structure GenericSubsystem where
  name : String
  sleepTime : ℤ
  logTime : ℚ := 5
  sleepTime_pos : 0 < sleepTime
  sleepTime_lt : sleepTime < 2 ^ 63

/-- The constructor makes a logger for all but the log writer. -/
def GenericSubsystem.hasLog (g : GenericSubsystem) : Bool := g.name != "LogWriter"

/-- What became of a call of `execute`. -/
inductive Outcome where
  | returned (retVal : Bool)
  | threw
  deriving DecidableEq, Repr

/-- What one pass of the loop reads: the clock at its start and end, and the timer for the
log before and after `writeLog`. -/
structure LoopReading where
  isTest : Bool := false
  startNow : ℤ
  outcome : Outcome
  timestamp : ℚ := 0
  loggedAt : ℚ := 0
  endNow : ℤ

/-- The thread is in the loop, past it, or ended by an exception. -/
inductive ThreadStatus where
  | looping | completed | died
  deriving DecidableEq, Repr

/-- `lastTime`, a double, and the locals of `run`. -/
structure LoopState where
  lastTime : ℚ := 0
  retVal : Bool := false
  lastLogged : ℚ := 0
  status : ThreadStatus := .looping

inductive LoopMessage where
  | excessiveSleepTime (target : ℤ) (slept : ℚ)
  | uncaughtException
  | excessiveExecutionTime (elapsed : ℤ)
  deriving DecidableEq, Repr

/-- What a pass does that is seen from outside: `nullDereference` is a use of a `LOG` that
is not there, and `slept` the argument of `Thread.sleep`. -/
structure LoopOutput where
  messages : List LoopMessage := []
  nullDereference : Bool := false
  wroteLog : Bool := false
  slept : Option ℤ := none

/-- `sysTime - lastTime`: the clock is rounded to a double, and so is the difference. -/
def asleep (sysTime : ℤ) (lastTime : ℚ) : ℚ :=
  Java.roundDouble (Java.roundDouble sysTime - lastTime)

/-- `sleepTime() * 2`, a `long`, as a double. -/
def sleepLimit (sleepTime : ℤ) : ℚ := Java.roundDouble (Java.wrapLong (sleepTime * 2))

/-- What is left to sleep after a pass that took `elapsed`. -/
def restTime (sleepTime elapsed : ℤ) : ℤ :=
  let spent :=
    if Java.wrapLong (elapsed * 2) > sleepTime then sleepTime.tdiv 2
    else if elapsed < 0 then 0
    else elapsed
  Java.wrapLong (sleepTime - spent)

/-- One pass of `run`. Of the three uses of `LOG` in it only the one in the `catch` block is
guarded, and `Thread.sleep` throws on a negative duration. -/
def iteration (g : GenericSubsystem) : Step LoopState LoopReading LoopOutput := fun s r =>
  if s.status ≠ .looping then (s, {})
  else if r.isTest then ({ s with retVal := false }, {})
  else
    let slept := asleep r.startNow s.lastTime
    let overslept := decide (slept > sleepLimit g.sleepTime)
    if overslept && !g.hasLog then ({ s with status := .died }, { nullDereference := true })
    else
      let messages := if overslept then [.excessiveSleepTime g.sleepTime slept] else []
      let retVal := match r.outcome with
        | .returned b => b
        | .threw => s.retVal
      let messages :=
        if r.outcome = .threw ∧ g.hasLog then messages ++ [.uncaughtException] else messages
      let due := decide (r.timestamp ≥ Java.roundDouble (s.lastLogged + g.logTime))
      let s := { s with
        lastTime := Java.roundDouble r.startNow
        retVal := retVal
        lastLogged := if due then r.loggedAt else s.lastLogged }
      let elapsed := Java.wrapLong (r.endNow - r.startNow)
      let overran := decide (elapsed > g.sleepTime)
      if overran && !g.hasLog then
        ({ s with status := .died },
          { messages := messages, wroteLog := due, nullDereference := true })
      else
        let messages :=
          if overran then messages ++ [.excessiveExecutionTime elapsed] else messages
        let duration := restTime g.sleepTime elapsed
        ({ s with
            status := if duration < 0 then .died else if retVal then .completed else .looping },
          { messages := messages, wroteLog := due, slept := some duration })

abbrev LoopMoment := Moment LoopState LoopReading LoopOutput

/-- No missing logger is used. -/
def UsesNoNull (m : LoopMoment) : Prop := m.output.nullDereference = false

/-- A sleep takes at least half the sleep time and at most all of it. -/
def SleepsWell (g : GenericSubsystem) (m : LoopMoment) : Prop :=
  ∀ duration, m.output.slept = some duration →
    0 ≤ duration ∧ g.sleepTime ≤ 2 * duration ∧ duration ≤ g.sleepTime

/-- The loop is left by a pass in which `execute` returned true, and in no other way. -/
def LeavesOnTrue (m : LoopMoment) : Prop :=
  m.pre.status = .looping → m.post.status ≠ .looping →
    m.post.status = .completed ∧ m.input.isTest = false ∧ m.input.outcome = .returned true

/-- The pass does not end the thread by itself. -/
def Survives (g : GenericSubsystem) (m : LoopMoment) : Prop :=
  UsesNoNull m ∧ SleepsWell g m ∧ LeavesOnTrue m

/-- The execution time of the pass, as the code computes it. -/
def elapsedIn (m : LoopMoment) : ℤ := Java.wrapLong (m.input.endNow - m.input.startNow)

/-- The pass came late or took long, which it wants to log. -/
def Complains (g : GenericSubsystem) (m : LoopMoment) : Prop :=
  asleep m.input.startNow m.pre.lastTime > sleepLimit g.sleepTime ∨ elapsedIn m > g.sleepTime

/-- Twice the execution time of the pass is a `long`, and without a logger it does not
complain. -/
def InTime (g : GenericSubsystem) (m : LoopMoment) : Prop :=
  m.pre.status = .looping → m.input.isTest = false →
    elapsedIn m < 2 ^ 62 ∧ (g.hasLog = true ∨ ¬ Complains g m)

section Rest

variable {sleepTime elapsed : ℤ}

/-- The three ranges of the sleep arithmetic, for times whose double is a `long`. -/
theorem restTime_bounds (hpos : 0 < sleepTime) (hlt : sleepTime < 2 ^ 63)
    (hmin : -2 ^ 63 ≤ elapsed) (hmax : elapsed < 2 ^ 62) :
    0 ≤ restTime sleepTime elapsed ∧ sleepTime ≤ 2 * restTime sleepTime elapsed ∧
      restTime sleepTime elapsed ≤ sleepTime := by
  have hhalf : sleepTime.tdiv 2 = sleepTime / 2 := Int.tdiv_eq_ediv_of_nonneg hpos.le
  unfold restTime
  extract_lets spent
  have hspent : 0 ≤ spent ∧ 2 * spent ≤ sleepTime := by
    unfold spent
    split
    · omega
    · next hshort =>
      split
      · omega
      · rw [Java.wrapLong_of_bounds (by omega) (by omega)] at hshort
        omega
  rw [Java.wrapLong_of_bounds (by omega) (by omega)]
  omega

/-- Longer times are not seen to be long, and are taken off in full. -/
theorem restTime_short (hpos : 0 < sleepTime) (hlt : sleepTime < 2 ^ 63)
    (hmin : 2 ^ 62 ≤ elapsed) (hmax : elapsed < 2 ^ 63) :
    2 * restTime sleepTime elapsed < sleepTime := by
  have hneg := Java.wrapLong_double_neg hmin hmax
  unfold restTime
  rw [if_neg (by omega), if_neg (by omega)]
  rw [Java.wrapLong_of_bounds (by omega) (by omega)]
  omega

end Rest

/-- For clocks of 52 bits, which last for a hundred thousand years, the doubles are exact. -/
theorem asleep_of_small {now last : ℤ} (hnow : |now| < 2 ^ 52) (hlast : |last| < 2 ^ 52) :
    asleep now last = now - last := by
  have hdiff : |now - last| < 2 ^ 53 := by
    have := abs_sub now last
    omega
  rw [asleep, Java.roundDouble_intCast (by omega), ← Int.cast_sub,
    Java.roundDouble_intCast hdiff]

theorem elapsed_bounds (m : LoopMoment) : -2 ^ 63 ≤ elapsedIn m ∧ elapsedIn m < 2 ^ 63 :=
  (Java.wrapLong_spec _).2

section Pass

variable (g : GenericSubsystem) (s : LoopState) (r : LoopReading)

/-- A thread that has ended does nothing more. -/
theorem iteration_ended (hs : s.status ≠ .looping) : iteration g s r = (s, {}) := if_pos hs

theorem iteration_test (hs : s.status = .looping) (ht : r.isTest = true) :
    iteration g s r = ({ s with retVal := false }, {}) := by
  simp [iteration, hs, ht]

/-- A complaint without a logger ends the thread. -/
theorem iteration_complains (hs : s.status = .looping) (ht : r.isTest = false)
    (hlog : g.hasLog = false) (hc : Complains g (moment (iteration g) s r)) :
    let m := moment (iteration g) s r
    m.output.nullDereference = true ∧ m.output.slept = none ∧ m.post.status = .died := by
  unfold Complains elapsedIn at hc
  simp only [moment_input, moment_pre] at hc
  simp only [moment, iteration, hs, ht, hlog, ne_eq, not_true_eq_false, ↓reduceIte,
    Bool.false_eq_true, Bool.not_false, Bool.and_true, decide_eq_true_eq]
  split
  · exact ⟨rfl, rfl, rfl⟩
  · next hstart =>
    rw [if_pos (hc.resolve_left hstart)]
    exact ⟨rfl, rfl, rfl⟩

/-- Any other pass goes to sleep, and leaves the loop when `retVal` is set. -/
theorem iteration_sleeps (hs : s.status = .looping) (ht : r.isTest = false)
    (hlog : g.hasLog = true ∨ ¬ Complains g (moment (iteration g) s r)) :
    let m := moment (iteration g) s r
    m.output.nullDereference = false ∧ m.post.lastTime = Java.roundDouble r.startNow ∧
      m.output.slept = some (restTime g.sleepTime (elapsedIn m)) ∧
      m.post.retVal = (match r.outcome with
        | .returned b => b
        | .threw => s.retVal) ∧
      m.post.status = if restTime g.sleepTime (elapsedIn m) < 0 then .died
        else if m.post.retVal then .completed else .looping := by
  have hstart : ¬ (decide (asleep r.startNow s.lastTime > sleepLimit g.sleepTime) &&
      !g.hasLog) = true := by
    rcases hlog with hlog | hc
    · simp [hlog]
    · have hlate : ¬ asleep r.startNow s.lastTime > sleepLimit g.sleepTime :=
        fun h => hc (.inl h)
      simp [hlate]
  have hend : ¬ (decide (Java.wrapLong (r.endNow - r.startNow) > g.sleepTime) &&
      !g.hasLog) = true := by
    rcases hlog with hlog | hc
    · simp [hlog]
    · have hlong : ¬ Java.wrapLong (r.endNow - r.startNow) > g.sleepTime := fun h => hc (.inr h)
      simp [hlong]
  simp only [moment, iteration, hs, ht, ne_eq, not_true_eq_false, ↓reduceIte,
    Bool.false_eq_true, if_neg hstart, if_neg hend, elapsedIn, and_self]

variable {g s r}

/-- While the thread loops, `retVal` is down. -/
def Looping (s : LoopState) : Prop := s.status = .looping → s.retVal = false

/-- A pass that sleeps leaves the loop as it should. -/
theorem leavesOnTrue_of_sleeps (hl : Looping s) (hs : s.status = .looping)
    (ht : r.isTest = false) (hlog : g.hasLog = true ∨ ¬ Complains g (moment (iteration g) s r))
    (hrest : 0 ≤ restTime g.sleepTime (elapsedIn (moment (iteration g) s r))) :
    LeavesOnTrue (moment (iteration g) s r) := by
  intro _ hleft
  obtain ⟨-, -, -, hretVal, hstatus⟩ := iteration_sleeps g s r hs ht hlog
  rw [if_neg (by omega)] at hstatus
  cases hret : (moment (iteration g) s r).post.retVal with
  | false =>
    rw [hret] at hstatus
    exact absurd hstatus hleft
  | true =>
    rw [hret] at hstatus
    refine ⟨hstatus, ht, ?_⟩
    rw [hret] at hretVal
    cases ho : r.outcome with
    | returned b =>
      rw [ho] at hretVal
      exact ho.trans (congrArg Outcome.returned hretVal.symm)
    | threw =>
      rw [ho] at hretVal
      exact absurd (hretVal.trans (hl hs)) (by decide)

/-- A pass survives exactly when it is in time. -/
theorem survives_iff (hl : Looping s) :
    Survives g (moment (iteration g) s r) ↔ InTime g (moment (iteration g) s r) := by
  by_cases hs : s.status = .looping
  swap
  · have hsame := iteration_ended g s r hs
    simp [Survives, UsesNoNull, SleepsWell, LeavesOnTrue, InTime, moment, hsame, hs]
  cases ht : r.isTest with
  | true =>
    have hsame := iteration_test g s r hs ht
    simp [Survives, UsesNoNull, SleepsWell, LeavesOnTrue, InTime, moment, hsame, hs, ht]
  | false =>
    by_cases hlog : g.hasLog = true ∨ ¬ Complains g (moment (iteration g) s r)
    · obtain ⟨hnull, -, hslept, -⟩ := iteration_sleeps g s r hs ht hlog
      obtain ⟨hmin, hmax⟩ := elapsed_bounds (moment (iteration g) s r)
      constructor
      · rintro ⟨-, hwell, -⟩ - -
        refine ⟨?_, hlog⟩
        by_contra hlong
        have hshort := restTime_short g.sleepTime_pos g.sleepTime_lt (by omega) hmax
        have := hwell _ hslept
        omega
      · intro hin
        have hrest := restTime_bounds g.sleepTime_pos g.sleepTime_lt hmin (hin hs ht).1
        refine ⟨hnull, ?_, leavesOnTrue_of_sleeps hl hs ht hlog hrest.1⟩
        intro duration hd
        obtain rfl := Option.some.inj (hslept.symm.trans hd)
        exact hrest
    · obtain ⟨hnolog, hc⟩ := not_or.mp hlog
      obtain ⟨hnull, -, -⟩ :=
        iteration_complains g s r hs ht (by simpa using hnolog) (not_not.mp hc)
      constructor
      · rintro ⟨hno, -⟩
        exact absurd (hnull.symm.trans hno) (by decide)
      · intro hin
        exact absurd (hin hs ht).2 hlog

/-- Every pass keeps it that a looping thread has `retVal` down. -/
theorem Looping.iteration (hl : Looping s) : Looping (iteration g s r).1 := by
  by_cases hs : s.status = .looping
  swap
  · rwa [iteration_ended g s r hs]
  cases ht : r.isTest with
  | true =>
    rw [iteration_test g s r hs ht]
    exact fun _ => rfl
  | false =>
    intro hloops
    by_cases hlog : g.hasLog = true ∨ ¬ Complains g (moment (Subsystem.iteration g) s r)
    · obtain ⟨-, -, -, -, hstatus⟩ := iteration_sleeps g s r hs ht hlog
      rw [moment_post, hloops] at hstatus
      by_contra hret
      rw [Bool.not_eq_false] at hret
      rw [hret] at hstatus
      split at hstatus <;> cases hstatus
    · obtain ⟨hnolog, hc⟩ := not_or.mp hlog
      obtain ⟨-, -, hdied⟩ :=
        iteration_complains g s r hs ht (by simpa using hnolog) (not_not.mp hc)
      rw [moment_post, hloops] at hdied
      cases hdied

end Pass

section Run

/-- Over every run of every subsystem, each pass survives exactly when each pass is in
time. -/
theorem subsystem_survives_iff (g : GenericSubsystem) (readings : List LoopReading) :
    (∀ m ∈ trace (iteration g) {} readings, Survives g m) ↔
      ∀ m ∈ trace (iteration g) {} readings, InTime g m := by
  have hstep : ∀ s r, Looping s → True → Looping (iteration g s r).1 :=
    fun _ _ hl _ => hl.iteration
  have h0 : Looping {} := fun _ => rfl
  apply forall_trace_congr hstep _ h0 fun _ _ => trivial
  intro s r hl
  exact survives_iff hl

/-- The log writer, the only subsystem without a logger. -/
def LogWriter : GenericSubsystem where
  name := "LogWriter"
  sleepTime := 50
  sleepTime_pos := by decide
  sleepTime_lt := by decide

/-- A first pass that takes no time, on any day since 1970. -/
def firstPass (now : ℤ) : LoopReading where
  startNow := now
  outcome := .returned false
  endNow := now

/-- The log writer's first pass finds that it has slept since 1970, and ends the thread. -/
theorem logWriter_dies : ¬ ∀ (g : GenericSubsystem) (readings : List LoopReading),
    ∀ m ∈ trace (iteration g) {} readings, Survives g m := by
  intro hall
  obtain ⟨hno, -⟩ := hall LogWriter [firstPass 1489000000000] _ (.head _)
  have hlate : asleep 1489000000000 0 > sleepLimit 50 := by
    have hexact := @asleep_of_small 1489000000000 0 (by decide) (by decide)
    rw [Int.cast_zero] at hexact
    rw [hexact, sleepLimit, show Java.wrapLong (50 * 2) = 100 by decide,
      Java.roundDouble_intCast (by decide)]
    norm_num
  obtain ⟨hnull, -⟩ := iteration_complains LogWriter {} (firstPass 1489000000000) rfl rfl
    (by decide) (.inl hlate)
  exact absurd (hnull.symm.trans hno) (by decide)

end Run

end SparxRobot.Subsystem
