import SparxRobot.Drives.Execute
import SparxRobot.Subsystem.Loop

/-! The navX may not be there when the robot starts. What then becomes of the drives is
followed through `init`, the start of `execute` and the loop of their thread. -/
namespace SparxRobot.Drives
open Machine Subsystem

variable {R : Type*} [Field R] [LinearOrder R]

def subsystem : GenericSubsystem where
  name := "Drives"
  sleepTime := 20
  sleepTime_pos := by decide
  sleepTime_lt := by decide

/-- The drives and their thread; `gyro` says whether the field holds an object. -/
structure NavState (R : Type*) [Field R] [LinearOrder R] where
  gyro : Bool
  drives : DrivesState R := {}
  loop : LoopState := {}

/-- What an iteration does about the gyro, and what becomes of it. -/
structure NavOutput where
  nullDereference : Bool := false
  attempted : Bool := false
  outcome : Outcome := .returned false

/-- What one pass of the loop reads; `created` is whether `new AHRS` returns, if it is called. -/
structure PassReading (R : Type*) [Field R] where
  isTest : Bool := false
  startNow : ℤ
  created : Bool
  reading : DrivesReading R := {}
  timestamp : ℚ := 0
  loggedAt : ℚ := 0
  endNow : ℤ

def PassReading.toLoop (r : PassReading R) (outcome : Outcome) : LoopReading where
  isTest := r.isTest
  startNow := r.startNow
  outcome := outcome
  timestamp := r.timestamp
  loggedAt := r.loggedAt
  endNow := r.endNow

/-- Between two passes other threads call the methods of the drives, none of which writes the
gyro; nothing more is assumed of what they do. -/
inductive NavEvent (R : Type*) [Field R] [LinearOrder R] where
  | pass (r : PassReading R)
  | otherThreads (drives : DrivesState R)

/-- `gyro.equals(null)`: no object equals null, and without an object the call throws. -/
def equalsNull (gyro : Bool) : Option Bool := if gyro then some false else none

/-- The gyro after `init`, and the thread after `liveWindow`, which registers the gyro with the
dashboard outside of any `try`; `nullAccepted` is whether that returns without a gyro. -/
def start (created nullAccepted : Bool) : NavState R where
  gyro := created
  loop := { status := if created || nullAccepted then .looping else .died }

/-- The pass calls `execute`. -/
def Executes (s : NavState R) (r : PassReading R) : Prop :=
  s.loop.status = .looping ∧ r.isTest = false

instance (s : NavState R) (r : PassReading R) : Decidable (Executes s r) :=
  inferInstanceAs (Decidable (_ ∧ _))

variable [FloorRing R] [JavaMath R]

/-- `execute` from its first line on. -/
def executeNav (created : Bool) (r : DrivesReading R) (s : NavState R) : NavState R × NavOutput :=
  match equalsNull s.gyro with
  | none => (s, { nullDereference := true, outcome := .threw })
  | some false => ({ s with drives := execute r s.drives }, {})
  | some true =>
      if created then
        ({ s with gyro := true, drives := execute r s.drives }, { attempted := true })
      else (s, { attempted := true, outcome := .threw })

def navStep : Step (NavState R) (NavEvent R) NavOutput
  | s, .pass r =>
      let executed := if Executes s r then executeNav r.created r.reading s else (s, {})
      ({ executed.1 with loop := (iteration subsystem s.loop (r.toLoop executed.2.outcome)).1 },
        executed.2)
  | s, .otherThreads drives => ({ s with drives := drives }, {})

abbrev NavMoment (R : Type*) [Field R] [LinearOrder R] :=
  Moment (NavState R) (NavEvent R) NavOutput

/-- An iteration uses no missing gyro, tries to get one while there is none, and with one it
does the rest. -/
def Recovers (m : NavMoment R) : Prop :=
  ∀ r, m.input = .pass r → Executes m.pre r →
    m.output.nullDereference = false ∧
      (m.pre.gyro = false → m.output.attempted = true ∧ m.post.gyro = r.created) ∧
      (m.post.gyro = true → m.post.drives = execute r.reading m.pre.drives)

/-- The thread reaches its loop, and every iteration recovers. -/
def SurvivesLoss (s : NavState R) (events : List (NavEvent R)) : Prop :=
  s.loop.status = .looping ∧ ∀ m ∈ trace navStep s events, Recovers m

section Step

variable {s : NavState R}

/-- The branch that would create the gyro again is never taken. -/
theorem executeNav_eq (created : Bool) (r : DrivesReading R) : executeNav created r s =
    if s.gyro then ({ s with drives := execute r s.drives }, {})
    else (s, { nullDereference := true, outcome := .threw }) := by
  unfold executeNav equalsNull
  cases s.gyro with
  | true => simp only [↓reduceIte]
  | false => simp only [Bool.false_eq_true, ↓reduceIte]

theorem navStep_gyro (e : NavEvent R) : (navStep s e).1.gyro = s.gyro := by
  cases e with
  | otherThreads drives => rfl
  | pass r =>
    dsimp only [navStep]
    rw [executeNav_eq]
    split
    · split <;> rfl
    · rfl

theorem navStep_executes {r : PassReading R} (h : Executes s r) :
    (moment navStep s (.pass r)).output = (executeNav r.created r.reading s).2 ∧
      (moment navStep s (.pass r)).post.drives = (executeNav r.created r.reading s).1.drives := by
  simp only [moment, navStep, if_pos h, and_self]

/-- With a gyro every step recovers. -/
theorem recovers_of_gyro (hs : s.gyro = true) (e : NavEvent R) :
    Recovers (moment navStep s e) := by
  rintro r rfl hexec
  obtain ⟨houtput, hdrives⟩ := navStep_executes (s := s) hexec
  rw [executeNav_eq, if_pos hs] at houtput hdrives
  rw [houtput, hdrives]
  exact ⟨rfl, fun hmissing => absurd (hs.symm.trans hmissing) (by decide), fun _ => rfl⟩

/-- Without one an iteration starts with a null dereference. -/
theorem not_recovers_of_missing (hs : s.gyro = false) {r : PassReading R} (h : Executes s r) :
    ¬ Recovers (moment navStep s (.pass r)) := by
  intro hrecovers
  obtain ⟨hnull, -⟩ := hrecovers r rfl h
  rw [(navStep_executes h).1, executeNav_eq, if_neg (by simp [hs])] at hnull
  exact Bool.noConfusion hnull

/-- A pass in test mode leaves the thread in its loop. -/
theorem navStep_looping (hs : s.loop.status = .looping) {e : NavEvent R}
    (htest : ∀ r, e = .pass r → r.isTest = true) : (navStep s e).1.loop.status = .looping := by
  cases e with
  | otherThreads drives => exact hs
  | pass r =>
    dsimp only [navStep]
    rw [iteration_test _ _ _ hs (htest r rfl)]
    exact hs

end Step

section Run

/-- Without a gyro all is well only while the robot is in test mode. -/
theorem recovers_iff_test {s : NavState R} (hloop : s.loop.status = .looping)
    (hs : s.gyro = false) (events : List (NavEvent R)) :
    (∀ m ∈ trace navStep s events, Recovers m) ↔ ∀ r, .pass r ∈ events → r.isTest = true := by
  induction events generalizing s with
  | nil => simp [trace]
  | cons e events ih =>
    have hhead : Recovers (moment navStep s e) ↔ ∀ r, e = .pass r → r.isTest = true := by
      constructor
      · rintro hrecovers r rfl
        by_contra htest
        exact not_recovers_of_missing hs ⟨hloop, Bool.eq_false_of_not_eq_true htest⟩ hrecovers
      · intro htest r hr hexec
        exact absurd (hexec.2.symm.trans (htest r hr)) (by decide)
    rw [trace, List.forall_mem_cons, hhead]
    constructor
    · rintro ⟨htest, hrest⟩ r hr
      have htail := (ih (navStep_looping hloop htest) ((navStep_gyro e).trans hs)).mp hrest
      rcases List.mem_cons.mp hr with rfl | hr
      · exact htest r rfl
      · exact htail r hr
    · intro hall
      have htest : ∀ r, e = .pass r → r.isTest = true := by
        rintro r rfl
        exact hall r List.mem_cons_self
      refine ⟨htest, (ih (navStep_looping hloop htest) ((navStep_gyro e).trans hs)).mpr ?_⟩
      exact fun r hr => hall r (List.mem_cons_of_mem _ hr)

/-- Over every run of the thread, the drives survive the loss of the gyro exactly when it was
created by `init` after all, or the robot is in test mode throughout. -/
theorem survivesLoss_iff (created nullAccepted : Bool) (events : List (NavEvent R)) :
    SurvivesLoss (start created nullAccepted) events ↔
      created = true ∨ nullAccepted = true ∧ ∀ r, .pass r ∈ events → r.isTest = true := by
  cases created with
  | true =>
    refine iff_of_true ⟨rfl, ?_⟩ (.inl rfl)
    have h0 : (start (R := R) true nullAccepted).gyro = true := rfl
    obtain ⟨hinv, -⟩ := invariant_of_step (P := fun s : NavState R => s.gyro = true)
      (fun s e hs (_ : True) => (navStep_gyro e).trans hs) h0 fun _ _ => trivial
    intro m hm
    rw [eq_moment_of_mem hm]
    exact recovers_of_gyro (hinv m hm).1 _
  | false =>
    cases nullAccepted with
    | false => simp [SurvivesLoss, start]
    | true =>
      have hloop : (start (R := R) false true).loop.status = .looping := rfl
      rw [SurvivesLoss, recovers_iff_test hloop rfl]
      simp [hloop]

/-- The gyro is not found by `init`, and then would be. -/
theorem lateGyro_not_created : ¬ ∀ (created nullAccepted : Bool) (events : List (NavEvent ℝ)),
    SurvivesLoss (start created nullAccepted) events := by
  intro hall
  let pass : PassReading ℝ := { startNow := 0, created := true, endNow := 0 }
  obtain ⟨-, hrecovers⟩ := hall false true [.pass pass]
  exact not_recovers_of_missing rfl ⟨rfl, rfl⟩ (hrecovers _ List.mem_cons_self)

end Run

end SparxRobot.Drives
