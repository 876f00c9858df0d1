import SparxRobot.Drives.PublicMethods
import SparxRobot.Machine.Register

/-! Who has the motors. The teleop case alone gives them to the motor test and takes them back,
so that a method that leaves the teleop state can leave them with the test. -/
namespace SparxRobot.Drives
open Machine

variable {R : Type*} [Field R] [LinearOrder R] [FloorRing R] [JavaMath R]

/-- The powers an iteration computes for the right and the left side. -/
def freshPowers (r : DrivesReading R) (s : DrivesState R) : R × R :=
  let s := runState r (sense r s)
  if r.mode.isOperatorControl then
    (overDeadband (s.rightWantedSpeed / MAX_SPEED R),
      overDeadband (s.leftWantedSpeed / MAX_SPEED R))
  else
    (overDeadband (s.rightPID.loop r.rightNow s.rightCurrentSpeed s.rightWantedSpeed).2,
      overDeadband (s.leftPID.loop r.leftNow s.leftCurrentSpeed s.leftWantedSpeed).2)

/-- An iteration writes the powers to the four motors. -/
def WritesPowers (r : DrivesReading R) (s t : DrivesState R) : Prop :=
  t.rightSetPower = (freshPowers r s).1 ∧ t.leftSetPower = (freshPowers r s).2 ∧
    t.rightMotorFront = t.rightSetPower ∧ t.rightMotorBack = t.rightSetPower ∧
    t.leftMotorFront = t.leftSetPower ∧ t.leftMotorBack = t.leftSetPower

/-- The moment is no iteration, or it writes the powers unless it starts in the teleop state,
and leaves the motors to the test only there and with the back button pressed. -/
def TestsInTeleop (m : CallMoment R) : Prop :=
  ∀ r, m.input.reading = some r →
    (m.pre.currentDriveState ≠ .teleop → WritesPowers r m.pre m.post) ∧
      (m.post.isDiagnostic = true → m.pre.currentDriveState = .teleop ∧ r.backPressed = true)

/-- The back button, as an iteration sees it that runs the teleop case. -/
def backSeen (m : CallMoment R) : Option Bool :=
  if m.pre.currentDriveState = .teleop then m.input.reading.map (·.backPressed) else none

/-- The moment is no iteration that starts outside of the teleop state, or the last iteration
there saw the back button released. -/
def BackReleased (h : List (CallMoment R)) (m : CallMoment R) : Prop :=
  m.input.reading.isSome = true → m.pre.currentDriveState ≠ .teleop →
    lastWrite backSeen h ≠ some true

section Step

variable (r : DrivesReading R) (s : DrivesState R)

omit [FloorRing R] [JavaMath R] in
theorem teleop_isDiagnostic : (teleop r s).isDiagnostic = r.backPressed := by
  unfold teleop
  extract_lets _ t u
  rw [setTankSpeed_eq]
  unfold u
  cases r.backPressed with
  | false => rfl
  | true =>
    rw [if_pos rfl, diagnostics_eq]

/-- No other case touches the flag. -/
theorem runState_isDiagnostic (h : s.currentDriveState ≠ .teleop) :
    (runState r s).isDiagnostic = s.isDiagnostic := by
  rw [runState_eq r h]

omit [FloorRing R] [JavaMath R] in
theorem setPower_isDiagnostic (brake : Bool) :
    (setPower r brake s).isDiagnostic = s.isDiagnostic := by
  unfold setPower
  split
  · rfl
  · split <;> rfl

theorem execute_isDiagnostic : (execute r s).isDiagnostic =
    if s.currentDriveState = .teleop then r.backPressed else s.isDiagnostic := by
  have hset : (execute r s).isDiagnostic = (runState r (sense r s)).isDiagnostic :=
    setPower_isDiagnostic r _ _
  rw [hset]
  split
  · next h =>
    rw [runState_teleop (s := sense r s) r h]
    exact teleop_isDiagnostic r _
  · next h => exact runState_isDiagnostic r (sense r s) h

variable {r s}

/-- The motors get the powers unless the test has them. -/
theorem execute_writes (h : (execute r s).isDiagnostic = false) :
    WritesPowers r s (execute r s) := by
  have hfree : (runState r (sense r s)).isDiagnostic = false :=
    (setPower_isDiagnostic r _ _).symm.trans h
  unfold WritesPowers freshPowers execute remember setPower
  dsimp only
  rw [if_neg (Bool.not_eq_true _ ▸ hfree)]
  split <;> exact ⟨rfl, rfl, rfl, rfl, rfl, rfl⟩

/-- An iteration tests the motors in the teleop case alone exactly when, starting outside of
it, it does not find them with the test. -/
theorem testsInTeleop_iff (c : DrivesCall R) : TestsInTeleop (moment callStep s c) ↔
    (c.reading.isSome = true → s.currentDriveState ≠ .teleop → s.isDiagnostic = false) := by
  unfold TestsInTeleop
  rw [moment_input, moment_pre]
  cases hc : c.reading with
  | none => simp
  | some r =>
    obtain rfl := reading_eq_some hc
    have hflag := execute_isDiagnostic r s
    have hpost : (moment callStep s (.event (.execute r))).post = execute r s := rfl
    rw [hpost]
    constructor
    · intro htests _ houtside
      by_contra hdiagnostic
      rw [if_neg houtside, Bool.of_not_eq_false hdiagnostic] at hflag
      exact houtside ((htests r rfl).2 hflag).1
    · rintro hfree _ ⟨⟩
      refine ⟨fun houtside => ?_, fun htest => ?_⟩
      · rw [if_neg houtside, hfree rfl houtside] at hflag
        exact execute_writes hflag
      · by_cases houtside : s.currentDriveState = .teleop
        · rw [if_pos houtside, htest] at hflag
          exact ⟨houtside, hflag.symm⟩
        · rw [if_neg houtside, hfree rfl houtside] at hflag
          exact absurd (hflag.symm.trans htest) Bool.false_ne_true

end Step

section Run

/-- Only the teleop case writes the flag, from the back button. -/
theorem isDiagnostic_register : Register (callStep (R := R)) DrivesState.isDiagnostic backSeen := by
  intro s c
  unfold backSeen
  rw [moment_pre, moment_input]
  cases hc : c.reading with
  | none =>
    have hkept : (callStep s c).1.isDiagnostic = s.isDiagnostic := by
      by_cases hp : c.Places
      · obtain ⟨angle, x, y, rfl⟩ := hp
        rfl
      · exact (call_undisturbed hc hp s).isDiagnostic
    rw [hkept]
    split <;> rfl
  | some r =>
    obtain rfl := reading_eq_some hc
    refine (execute_isDiagnostic r s).trans ?_
    split <;> rfl

/-- Over every run of iterations and public methods from power-on, the test has the motors in
the teleop case alone exactly when no iteration starts outside of it after the back button was
last seen pressed. -/
theorem tests_in_teleop_iff (calls : List (DrivesCall R)) :
    (∀ m ∈ trace callStep ({} : DrivesState R) calls, TestsInTeleop m) ↔
      ∀ h m t, trace callStep ({} : DrivesState R) calls = h ++ m :: t → BackReleased h m := by
  have hone : ∀ h m t, trace callStep ({} : DrivesState R) calls = h ++ m :: t →
      (TestsInTeleop m ↔ BackReleased h m) := by
    intro h m t ht
    have hflag : m.pre.isDiagnostic = (lastWrite backSeen h).getD false :=
      isDiagnostic_register.value ht
    rw [(trace_after ht).1, testsInTeleop_iff, BackReleased, moment_input, moment_pre, hflag]
    cases lastWrite backSeen h with
    | none => simp
    | some pressed => cases pressed <;> simp
  constructor
  · intro htests h m t ht
    exact (hone h m t ht).mp (htests m (by simp [ht]))
  · intro hreleased m hm
    obtain ⟨h, t, ht⟩ := List.append_of_mem hm
    exact (hone h m t ht).mpr (hreleased h m t ht)

/-- The driver tests the motors, and the drives are aborted before the button is released. -/
def abortDuringTest (R : Type*) [Field R] : List (DrivesCall R) :=
  [.event (.execute { mode := .teleopEnabled }),
    .event (.execute { mode := .teleopEnabled, backPressed := true }), .event .abortAuto,
    .event (.execute { mode := .teleopEnabled })]

/-- The abort is carried out, and the motors are still with the test. -/
theorem abortDuringTest_still_tests :
    ¬ ∀ calls, ∀ m ∈ trace callStep ({} : DrivesState ℝ) calls, TestsInTeleop m := by
  intro hall
  let s : DrivesState ℝ := (callStep {} (.event (.execute { mode := .teleopEnabled }))).1
  let t := (callStep s (.event (.execute { mode := .teleopEnabled, backPressed := true }))).1
  have hteleop : s.currentDriveState = .teleop := (execute_standby rfl rfl).1
  have htest : t.isDiagnostic = true := by
    refine (execute_isDiagnostic _ s).trans ?_
    rw [if_pos hteleop]
  have hlast := hall (abortDuringTest ℝ) _ (.tail _ (.tail _ (.tail _ (.head _))))
  have hfree : (abortAuto t).isDiagnostic = false :=
    (testsInTeleop_iff _).mp hlast rfl (show DriveState.autoAbort ≠ .teleop by decide)
  exact Bool.noConfusion (htest.symm.trans hfree)

end Run

end SparxRobot.Drives
