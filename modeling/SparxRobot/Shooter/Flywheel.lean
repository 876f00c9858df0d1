import Mathlib.Tactic.Linarith
import SparxRobot.Shooter.Command

/-! The flywheel regulator over whole runs. Its two comparisons are strict and written in
different forms, each with a rounding of its own, and between them a call of the speed
control commands nothing. -/
namespace SparxRobot.Shooter
open Machine

/-- The flywheel commands of a call of `speedCtrl`, in order. -/
def flyWheelCommands (r : ShooterReading) (s : ShooterState) : List ℚ :=
  if !s.isPressed then [0]
  else
    let s := setPoints r s
    if s.shootingSpeedCurrent < Java.roundDouble (s.shootingSpeed - SPEED_ALLOWED_OFF) then
      [FLYWHEEL_MAX]
    else if Java.roundDouble (s.shootingSpeedCurrent + SPEED_ALLOWED_OFF) > s.shootingSpeed then
      [holdingPower s.shootingSpeed]
    else []

/-- The set speed of a call: the one of the manual or the scripted control with the presses
it reads, or the one for the distance. -/
def setSpeed (r : ShooterReading) (s : ShooterState) : ℚ :=
  if s.visionOff || s.manualControl then s.speed + unread r.increaseAt r.decreaseAt s
  else speedForDistance Java.roundDouble s

/-- Full power more than 15 below the set speed, and the holding power otherwise, as doubles
are subtracted, added and multiplied. -/
def wheelPower (measured set : ℚ) : ℚ :=
  if measured < Java.roundDouble (set - 15) then 1
  else Java.roundDouble (0.25 + Java.roundDouble (Java.roundDouble 0.0001 * set))

/-- The measured speed is not more than 15 below the set speed, and 15 more than it are not
above: both as doubles are subtracted and added. -/
def InGap (measured set : ℚ) : Prop :=
  Java.roundDouble (set - 15) ≤ measured ∧ Java.roundDouble (measured + 15) ≤ set

instance (measured set : ℚ) : Decidable (InGap measured set) := by
  unfold InGap
  infer_instance

/-- The moment is no iteration with the system on, or its call of `speedCtrl` issues the one
command for its speeds, which is the flywheel's when the iteration ends. Between doubles the
full power is the one for more than 15 below, exactly. -/
def CommandsWheel (m : Moment ShooterState ShooterEvent (Option Target)) : Prop :=
  ∀ r, m.input = .execute r → (atSpeedCtrl r m.pre).isPressed = true →
    let set := setSpeed r (atSpeedCtrl r m.pre)
    flyWheelCommands r (atSpeedCtrl r m.pre) = [wheelPower r.speedCurrent set] ∧
      m.post.flyWheel = wheelPower r.speedCurrent set ∧
      (Java.IsDouble r.speedCurrent → Java.IsDouble set →
        wheelPower r.speedCurrent set =
          if r.speedCurrent < set - 15 then 1 else holdingPower set)

/-- The moment is no iteration with the system on, or the wheel is not measured in the gap
below the set speed. -/
def OffTheGap (m : Moment ShooterState ShooterEvent (Option Target)) : Prop :=
  ∀ r, m.input = .execute r → (atSpeedCtrl r m.pre).isPressed = true →
    ¬ InGap r.speedCurrent (setSpeed r (atSpeedCtrl r m.pre))

section Gap

open Java

variable {measured set : ℚ}

/-- Outside the gap the rounding makes no difference. -/
theorem wheelPower_of_not_inGap (hm : IsDouble measured) (hs : IsDouble set)
    (hgap : ¬ InGap measured set) :
    wheelPower measured set = if measured < set - 15 then 1 else holdingPower set := by
  have hhold : holdingPower set =
      roundDouble (0.25 + roundDouble (roundDouble 0.0001 * set)) := by
    rw [holdingPower, FLYWHEEL_DECAY, mul_comm]
  unfold wheelPower
  rw [hhold]
  by_cases hlow : measured < roundDouble (set - 15)
  · have hexact : measured < set - 15 := by
      by_contra hle
      have hmono := roundDouble_mono (not_lt.mp hle)
      rw [roundDouble_of_isDouble hm] at hmono
      exact absurd hlow (not_lt.mpr hmono)
    rw [if_pos hlow, if_pos hexact]
  · have hexact : ¬ measured < set - 15 := by
      intro hlt
      have hmono : roundDouble (measured + 15) ≤ roundDouble set :=
        roundDouble_mono (by linarith)
      rw [roundDouble_of_isDouble hs] at hmono
      exact hgap ⟨not_lt.mp hlow, hmono⟩
    rw [if_neg hlow, if_neg hexact]

end Gap

section Call

variable (r : ShooterReading) (s : ShooterState)

theorem setPoints_shootingSpeed : (setPoints r s).shootingSpeed = setSpeed r s := by
  unfold setPoints setSpeed
  split
  · exact adjustSpeed_speed
  · rfl

theorem setPoints_shootingSpeedCurrent :
    (setPoints r s).shootingSpeedCurrent = s.shootingSpeedCurrent := by rw [setPoints_eq]

/-- The last command there was is the one the flywheel keeps. -/
theorem speedCtrl_flyWheel : (speedCtrl r s).1.flyWheel =
    (flyWheelCommands r s).getLast?.getD s.flyWheel := by
  have hkept : (setPoints r s).flyWheel = s.flyWheel := by rw [setPoints_eq]
  unfold speedCtrl flyWheelCommands
  split
  · rfl
  · unfold regulate
    dsimp only
    split_ifs
    · rfl
    · rfl
    · exact hkept

/-- With the system on, the commands of a call by its measured speed and its set speed. -/
theorem flyWheelCommands_on (h : s.isPressed = true) : flyWheelCommands r s =
    if InGap s.shootingSpeedCurrent (setSpeed r s) then []
    else [wheelPower s.shootingSpeedCurrent (setSpeed r s)] := by
  unfold flyWheelCommands wheelPower holdingPower
  simp only [h, Bool.not_true, Bool.false_eq_true, if_false, setPoints_shootingSpeed,
    setPoints_shootingSpeedCurrent, SPEED_ALLOWED_OFF, FLYWHEEL_MAX, FLYWHEEL_DECAY]
  rw [mul_comm (setSpeed r s)]
  by_cases hlow : s.shootingSpeedCurrent < Java.roundDouble (setSpeed r s - 15)
  · have hoff : ¬ InGap s.shootingSpeedCurrent (setSpeed r s) :=
      fun hgap => absurd hlow (not_lt.mpr hgap.1)
    rw [if_pos hlow, if_neg hoff, if_pos hlow]
  · by_cases hhigh : Java.roundDouble (s.shootingSpeedCurrent + 15) > setSpeed r s
    · have hoff : ¬ InGap s.shootingSpeedCurrent (setSpeed r s) :=
        fun hgap => absurd hhigh (not_lt.mpr hgap.2)
      rw [if_neg hlow, if_pos hhigh, if_neg hoff, if_neg hlow]
    · have hin : InGap s.shootingSpeedCurrent (setSpeed r s) :=
        ⟨not_lt.mp hlow, not_lt.mp hhigh⟩
      rw [if_neg hlow, if_neg hhigh, if_pos hin]

theorem atSpeedCtrl_shootingSpeedCurrent :
    (atSpeedCtrl r s).shootingSpeedCurrent = r.speedCurrent := by
  rw [atSpeedCtrl_eq, atTurretCtrl_eq, readCommand_eq, sense_eq]

theorem execute_flyWheel : (execute r s).1.flyWheel =
    (flyWheelCommands r (atSpeedCtrl r s)).getLast?.getD (atSpeedCtrl r s).flyWheel := by
  rw [← speedCtrl_flyWheel]
  rfl

end Call

section Run

/-- An iteration commands the wheel exactly when it does not measure the gap. -/
theorem commandsWheel_iff (s : ShooterState) (e : ShooterEvent) :
    CommandsWheel (moment shooterStep s e) ↔ OffTheGap (moment shooterStep s e) := by
  constructor
  · intro hcommands r hr hon hgap
    rw [moment_pre] at hon hgap
    have hone := (hcommands r hr hon).1
    rw [moment_pre, flyWheelCommands_on r _ hon, atSpeedCtrl_shootingSpeedCurrent,
      if_pos hgap] at hone
    exact absurd hone (by simp)
  · intro hoff r hr hon
    obtain rfl : e = .execute r := hr
    have hne := hoff r rfl hon
    rw [moment_pre] at hon hne ⊢
    have hone : flyWheelCommands r (atSpeedCtrl r s) =
        [wheelPower r.speedCurrent (setSpeed r (atSpeedCtrl r s))] := by
      rw [flyWheelCommands_on r _ hon, atSpeedCtrl_shootingSpeedCurrent, if_neg hne]
    refine ⟨hone, ?_, fun hm hs => wheelPower_of_not_inGap hm hs hne⟩
    show (execute r s).1.flyWheel = _
    rw [execute_flyWheel, hone]
    rfl

/-- Over every run from `init`, the flywheel gets its one command from each call of the speed
control with the system on exactly when none of them measures the gap. -/
theorem commands_wheel_iff (events : List ShooterEvent) :
    (∀ m ∈ trace shooterStep {} events, CommandsWheel m) ↔
      ∀ m ∈ trace shooterStep {} events, OffTheGap m := by
  apply forall₂_congr
  intro m hm
  rw [eq_moment_of_mem hm]
  exact commandsWheel_iff m.pre m.input

/-- The operator turns the system on with the wheel at 15 below the first set speed. -/
def onAtTheGap : ShooterReading :=
  { mode := .teleopEnabled, flipSystemOn := true, speedCurrent := 1385 }

/-- The flywheel keeps the command it had while the system was off. -/
theorem onAtTheGap_keeps :
    ¬ ∀ events, ∀ m ∈ trace shooterStep {} events, CommandsWheel m := by
  intro hall
  have hone := (hall [.execute onAtTheGap] _ (.head _) onAtTheGap rfl (by decide +kernel)).1
  exact absurd hone (by decide +kernel)

end Run

end SparxRobot.Shooter
