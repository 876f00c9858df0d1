import SparxRobot.Drives.Command

/-! What the sticks can move: an iteration reads them in the teleop state alone, and only
there does the result depend on them, in whatever mode the robot is. -/
namespace SparxRobot.Drives
open Machine

variable {R : Type*} [Field R] [LinearOrder R]

/-- The same iteration with other values on the two joystick axes. -/
def DrivesReading.withSticks (right left : R) (r : DrivesReading R) : DrivesReading R :=
  { r with rightStick := right, leftStick := left }

/-- The wheels are wanted to turn alike, and the motors have the same powers. -/
structure SameDrive (s t : DrivesState R) : Prop where
  rightWantedSpeed : s.rightWantedSpeed = t.rightWantedSpeed
  leftWantedSpeed : s.leftWantedSpeed = t.leftWantedSpeed
  rightSetPower : s.rightSetPower = t.rightSetPower
  leftSetPower : s.leftSetPower = t.leftSetPower
  rightMotorFront : s.rightMotorFront = t.rightMotorFront
  rightMotorBack : s.rightMotorBack = t.rightMotorBack
  leftMotorFront : s.leftMotorFront = t.leftMotorFront
  leftMotorBack : s.leftMotorBack = t.leftMotorBack

theorem SameDrive.refl (s : DrivesState R) : SameDrive s s :=
  ⟨rfl, rfl, rfl, rfl, rfl, rfl, rfl, rfl⟩

section Sticks

variable [FloorRing R] [JavaMath R]

/-- The moment is no iteration outside operator control, or other values on the axes would
have driven the robot the same way. -/
def Isolated (m : DrivesMoment R) : Prop :=
  ∀ r, m.input = .execute r → r.mode.isOperatorControl = false →
    ∀ right left, SameDrive (execute (r.withSticks right left) m.pre) m.post

/-- The moment is no iteration outside operator control, or finds the sticks not connected. -/
def FindsNoTeleop (m : DrivesMoment R) : Prop :=
  ∀ r, m.input = .execute r → r.mode.isOperatorControl = false →
    m.pre.currentDriveState ≠ .teleop

variable (r : DrivesReading R) {s : DrivesState R} (right left : R)

@[simp] theorem sense_withSticks : sense (r.withSticks right left) s = sense r s := rfl

/-- Only the teleop state reads the sticks. -/
theorem runState_withSticks (h : s.currentDriveState ≠ .teleop) :
    runState (r.withSticks right left) s = runState r s := by
  unfold runState
  cases hc : s.currentDriveState with
  | teleop => exact absurd hc h
  | _ => rfl

theorem execute_withSticks (h : s.currentDriveState ≠ .teleop) :
    execute (r.withSticks right left) s = execute r s := by
  have hrun : runState (r.withSticks right left) (sense r s) = runState r (sense r s) :=
    runState_withSticks r right left h
  simp only [execute, sense_withSticks, hrun]
  rfl

omit [FloorRing R] [JavaMath R] in
@[simp] theorem setTankSpeed_isInverse (isInverted : Bool) (s : DrivesState R) :
    (setTankSpeed right left isInverted s).isInverse = s.isInverse := by
  unfold setTankSpeed
  split <;> rfl

omit [FloorRing R] [JavaMath R] in
theorem setTankSpeed_setTankSpeed (right' left' : R) (isInverted : Bool) (s : DrivesState R) :
    setTankSpeed right left isInverted (setTankSpeed right' left' isInverted s) =
      setTankSpeed right left isInverted s := by
  cases isInverted <;> rfl

omit [FloorRing R] [JavaMath R] in
/-- Other values on the axes set other speeds, and change nothing else teleop does. -/
theorem teleop_withSticks (s : DrivesState R) : teleop (r.withSticks right left) s =
    setTankSpeed right left (teleop r s).isInverse (teleop r s) := by
  unfold teleop
  extract_lets
  rw [setTankSpeed_isInverse, setTankSpeed_setTankSpeed]
  rfl

theorem execute_teleop (h : s.currentDriveState = .teleop) :
    (execute (r.withSticks right left) s).rightWantedSpeed =
      (setTankSpeed right left (teleop r (sense r s)).isInverse
        (teleop r (sense r s))).rightWantedSpeed := by
  have hrun : runState (r.withSticks right left) (sense r s) =
      teleop (r.withSticks right left) (sense r s) := runState_teleop (s := sense r s) _ h
  rw [execute_rightWantedSpeed, sense_withSticks, hrun, teleop_withSticks]

end Sticks

section Run

/-- In the teleop state full sticks and released ones differ. -/
theorem teleop_depends (r : DrivesReading ℝ) {s : DrivesState ℝ}
    (h : s.currentDriveState = .teleop) : ∃ right left,
    (execute (r.withSticks right left) s).rightWantedSpeed ≠ (execute r s).rightWantedSpeed := by
  by_contra hsame
  push Not at hsame
  have hspeed := (hsame 0 0).trans (hsame 1 1).symm
  rw [execute_teleop r 0 0 h, execute_teleop r 1 1 h] at hspeed
  unfold setTankSpeed at hspeed
  cases hi : (teleop r (sense r s)).isInverse <;> simp [hi, MAX_SPEED] at hspeed

/-- An iteration is isolated exactly when it does not find the teleop state. -/
theorem isolated_iff (s : DrivesState ℝ) (e : DrivesEvent ℝ) :
    Isolated (moment drivesStep s e) ↔ FindsNoTeleop (moment drivesStep s e) := by
  constructor
  · intro hisolated r hr hmode hteleop
    obtain rfl : e = .execute r := hr
    obtain ⟨right, left, hne⟩ := teleop_depends r hteleop
    exact hne (hisolated r rfl hmode right left).rightWantedSpeed
  · intro hnone r hr hmode right left
    obtain rfl : e = .execute r := hr
    rw [execute_withSticks r right left (hnone r rfl hmode)]
    exact SameDrive.refl _

/-- Over every run from power-on, the sticks drive the robot in operator control alone
exactly when no iteration outside it finds the drives in the teleop state. -/
theorem sticks_isolated_iff (events : List (DrivesEvent ℝ)) :
    (∀ m ∈ trace drivesStep ({} : DrivesState ℝ) events, Isolated m) ↔
      ∀ m ∈ trace drivesStep ({} : DrivesState ℝ) events, FindsNoTeleop m := by
  apply forall₂_congr
  intro m hm
  rw [eq_moment_of_mem hm]
  exact isolated_iff m.pre m.input

/-- An iteration in operator control, then one in autonomous. -/
def teleopThenAutonomous (R : Type*) [Field R] : List (DrivesEvent R) :=
  [.execute { mode := .teleopEnabled }, .execute { mode := .autoEnabled }]

/-- The sticks still move the robot in autonomous. -/
theorem teleopThenAutonomous_driven :
    ¬ ∀ events, ∀ m ∈ trace drivesStep ({} : DrivesState ℝ) events, Isolated m := by
  intro hall
  let s : DrivesState ℝ := execute { mode := .teleopEnabled } {}
  have hlast : moment drivesStep s (.execute { mode := .autoEnabled }) ∈
      trace drivesStep ({} : DrivesState ℝ) (teleopThenAutonomous ℝ) := by
    simp only [teleopThenAutonomous, trace]
    exact .tail _ (.head _)
  have hteleop : s.currentDriveState = .teleop := (execute_standby rfl rfl).1
  obtain ⟨right, left, hne⟩ := teleop_depends { mode := .autoEnabled } hteleop
  exact hne (hall _ _ hlast _ rfl rfl right left).rightWantedSpeed

end Run

end SparxRobot.Drives
