import SparxRobot.Shooter.Execute

/-! What one iteration of the shooter can change. Each part of the loop is its state with
a few fields replaced; the two lemmas on `execute` in autonomous mode follow. -/
namespace SparxRobot.Shooter
open Machine

section Parts

variable (r : ShooterReading) (s : ShooterState)

theorem diagnostics_eq : diagnostics r s =
    { s with
      flyWheel := (diagnostics r s).flyWheel
      degreeOff := (diagnostics r s).degreeOff
      currentTime := (diagnostics r s).currentTime
      startingTurret := (diagnostics r s).startingTurret
      currentEnum := (diagnostics r s).currentEnum } := by
  unfold diagnostics
  cases s.currentEnum <;> dsimp only <;> (repeat' split) <;> rfl

theorem sense_eq : sense r s =
    { s with
      shootingSpeedCurrent := r.speedCurrent
      turretDegreeCurrent := r.relDegrees
      flyWheel := (sense r s).flyWheel
      degreeOff := (sense r s).degreeOff
      currentTime := (sense r s).currentTime
      startingTurret := (sense r s).startingTurret
      currentEnum := (sense r s).currentEnum } := by
  unfold sense
  dsimp only
  split
  · rw [diagnostics_eq]
  · rfl

theorem readCommand_eq : readCommand r s =
    { s with
      visionOff := (readCommand r s).visionOff
      isPressed := (readCommand r s).isPressed
      fireWhenReady := (readCommand r s).fireWhenReady
      speed := (readCommand r s).speed
      shroudOutput := (readCommand r s).shroudOutput
      degreeOff := (readCommand r s).degreeOff
      manualControl := (readCommand r s).manualControl } := by
  unfold readCommand
  dsimp only
  (repeat' split) <;> rfl

theorem aim_eq : aim r s =
    { s with targetDistance := (aim r s).targetDistance, degreeOff := (aim r s).degreeOff } := by
  unfold aim
  dsimp only
  split
  · split <;> rfl
  · rfl

theorem turretCtrl_eq : (turretCtrl r s).1 =
    { s with
      degreeOff := (turretCtrl r s).1.degreeOff
      turretOutput := (turretCtrl r s).1.turretOutput } := rfl

theorem transition_eq : (transition s).1 =
    { s with speed := (transition s).1.speed, lastPressed := s.isPressed } := by
  unfold transition
  split
  · dsimp only
    split <;> rfl
  · next h =>
    cases s
    simp_all

theorem transition_speed : (transition s).1.speed =
    if s.lastPressed = false ∧ s.isPressed = true ∧ s.manualControl = false then INITIAL_SPEED
    else s.speed := by
  unfold transition
  cases s.lastPressed <;> cases s.isPressed <;> cases s.manualControl <;> simp

theorem regulate_eq : regulate s = { s with flyWheel := (regulate s).flyWheel } := by
  unfold regulate
  split
  · rfl
  · split <;> rfl

theorem adjustSpeed_eq : adjustSpeed r s =
    { s with
      speed := (adjustSpeed r s).speed
      increaseSeen := (adjustSpeed r s).increaseSeen
      decreaseSeen := (adjustSpeed r s).decreaseSeen } := by
  unfold adjustSpeed
  dsimp only
  split
  · rfl
  · split <;> rfl

theorem setPoints_eq : setPoints r s =
    { s with
      shootingSpeed := (setPoints r s).shootingSpeed
      shroudOutput := (setPoints r s).shroudOutput
      speed := (setPoints r s).speed
      increaseSeen := (setPoints r s).increaseSeen
      decreaseSeen := (setPoints r s).decreaseSeen } := by
  unfold setPoints
  dsimp only
  split
  · rw [adjustSpeed_eq]
  · rfl

theorem speedCtrl_eq : (speedCtrl r s).1 =
    { s with
      flyWheel := (speedCtrl r s).1.flyWheel
      shootingSpeed := (speedCtrl r s).1.shootingSpeed
      shroudOutput := (speedCtrl r s).1.shroudOutput
      speed := (speedCtrl r s).1.speed
      increaseSeen := (speedCtrl r s).1.increaseSeen
      decreaseSeen := (speedCtrl r s).1.decreaseSeen } := by
  unfold speedCtrl
  dsimp only
  split
  · rfl
  · rw [regulate_eq, setPoints_eq]

theorem speedCtrl_off (h : s.isPressed = false) : (speedCtrl r s).1.flyWheel = 0 := by
  unfold speedCtrl
  simp [h]

end Parts

section Stages

variable (r : ShooterReading) (s : ShooterState)

/-- The state an iteration brings to the turret control, in any mode. -/
def atTurretCtrl : ShooterState := (transition (aim r (readCommand r (sense r s)))).1

/-- The state it brings to the speed control. -/
def atSpeedCtrl : ShooterState := (turretCtrl r (atTurretCtrl r s)).1

theorem execute_eq_drive : (execute r s).1 = drive (fireOverrides r)
    { (speedCtrl r (atSpeedCtrl r s)).1 with
      ready := (turretCtrl r (atTurretCtrl r s)).2 && (speedCtrl r (atSpeedCtrl r s)).2 } := rfl

/-- Before the turret control, what is commanded is what the command reading left. -/
theorem atTurretCtrl_eq : atTurretCtrl r s =
    { readCommand r (sense r s) with
      targetDistance := (atTurretCtrl r s).targetDistance
      degreeOff := (aim r (readCommand r (sense r s))).degreeOff
      speed := (atTurretCtrl r s).speed
      lastPressed := (readCommand r (sense r s)).isPressed } := by
  unfold atTurretCtrl
  rw [transition_eq, aim_eq]

theorem atSpeedCtrl_eq : atSpeedCtrl r s =
    { atTurretCtrl r s with
      degreeOff := (atSpeedCtrl r s).degreeOff
      turretOutput := (atSpeedCtrl r s).turretOutput } := rfl

/-- Behind the speed control an iteration only drives the motors. -/
theorem execute_eq_atSpeedCtrl : (execute r s).1 =
    { atSpeedCtrl r s with
      flyWheel := (execute r s).1.flyWheel
      shootingSpeed := (execute r s).1.shootingSpeed
      shroudOutput := (execute r s).1.shroudOutput
      speed := (execute r s).1.speed
      increaseSeen := (execute r s).1.increaseSeen
      decreaseSeen := (execute r s).1.decreaseSeen
      ready := (execute r s).1.ready
      intakeStatus := (execute r s).1.intakeStatus
      feeder := (execute r s).1.feeder
      turret := (atSpeedCtrl r s).turretOutput
      shroud := (execute r s).1.shroud } := by
  rw [execute_eq_drive]
  simp only [drive]
  rw [speedCtrl_eq]

end Stages

section Calls

variable (mode : Mode) (isOn speeds vision shroudPos : ℤ) (s : ShooterState)

@[simp] theorem shooterSystemState_isPressed :
    (shooterSystemState mode isOn speeds vision shroudPos s).isPressed =
      (decide (isOn = 1) && mode.isAutonomous) := by
  unfold shooterSystemState
  dsimp only
  split
  · next h => simp [h.1, h.2]
  · next h =>
    have hoff : isOn = 1 → mode.isAutonomous = false := by
      intro h1
      simpa [h1] using h
    by_cases h1 : isOn = 1
    · simp [h1, hoff h1]
    · simp [h1]

@[simp] theorem shooterSystemState_fireWhenReady :
    (shooterSystemState mode isOn speeds vision shroudPos s).fireWhenReady = s.fireWhenReady := by
  unfold shooterSystemState
  dsimp only
  split <;> rfl

end Calls

section Autonomous

variable {r : ShooterReading} {s : ShooterState}

theorem readCommand_autonomous (h : r.mode.isAutonomous = true) : readCommand r s = s := by
  simp [readCommand, h]

theorem fireOverrides_autonomous (h : r.mode.isAutonomous = true) : fireOverrides r = false := by
  simp [fireOverrides, h]

/-- The state an iteration in autonomous mode brings to the speed control. -/
def armed (r : ShooterReading) (s : ShooterState) : ShooterState :=
  (turretCtrl r (transition (aim r (sense r s))).1).1

theorem armed_eq (r : ShooterReading) (s : ShooterState) : armed r s =
    { s with
      shootingSpeedCurrent := r.speedCurrent
      turretDegreeCurrent := r.relDegrees
      flyWheel := (armed r s).flyWheel
      degreeOff := (armed r s).degreeOff
      currentTime := (armed r s).currentTime
      startingTurret := (armed r s).startingTurret
      currentEnum := (armed r s).currentEnum
      targetDistance := (armed r s).targetDistance
      speed := (armed r s).speed
      lastPressed := s.isPressed
      turretOutput := (armed r s).turretOutput } := by
  unfold armed
  rw [turretCtrl_eq, transition_eq, aim_eq, sense_eq]

/-- An iteration in autonomous mode, from the state it brings to the speed control. -/
theorem execute_autonomous (h : r.mode.isAutonomous = true) :
    (execute r s).1 = drive false
      { (speedCtrl r (armed r s)).1 with
        ready := (turretCtrl r (transition (aim r (sense r s))).1).2 &&
          (speedCtrl r (armed r s)).2 } := by
  unfold execute
  rw [readCommand_autonomous h, fireOverrides_autonomous h]
  rfl

/-- What comes between the commands and the outputs changes no command. -/
theorem speedCtrl_armed_commands (r : ShooterReading) (s : ShooterState) :
    (speedCtrl r (armed r s)).1.isPressed = s.isPressed ∧
      (speedCtrl r (armed r s)).1.fireWhenReady = s.fireWhenReady ∧
      (speedCtrl r (armed r s)).1.manualControl = s.manualControl ∧
      (speedCtrl r (armed r s)).1.visionOff = s.visionOff := by
  rw [speedCtrl_eq, armed_eq]
  exact ⟨rfl, rfl, rfl, rfl⟩

/-- In autonomous mode an iteration does not touch the commands, and without them it stops
the flywheel and the feeder. -/
theorem execute_autonomous_commands (h : r.mode.isAutonomous = true) :
    (execute r s).1.isPressed = s.isPressed ∧
      (execute r s).1.fireWhenReady = s.fireWhenReady ∧
      (execute r s).1.manualControl = s.manualControl ∧
      (execute r s).1.visionOff = s.visionOff ∧
      (s.isPressed = false → (execute r s).1.flyWheel = 0) ∧
      (s.fireWhenReady = false → (execute r s).1.feeder = 0) := by
  obtain ⟨hpressed, hfire, hmanual, hvision⟩ := speedCtrl_armed_commands r s
  rw [execute_autonomous h]
  refine ⟨hpressed, hfire, hmanual, hvision, ?_, ?_⟩
  · intro hp
    refine speedCtrl_off r _ ?_
    rw [armed_eq]
    exact hp
  · intro hf
    simp [drive, hfire, hf]

/-- Neither command is on. -/
def Off (s : ShooterState) : Prop := s.isPressed = false ∧ s.fireWhenReady = false

/-- Neither command is on, and the flywheel and the feeder are commanded to stand. -/
def AtRest (s : ShooterState) : Prop := Off s ∧ s.flyWheel = 0 ∧ s.feeder = 0

theorem execute_off (h : r.mode.isAutonomous = true) (hs : Off s) : AtRest (execute r s).1 := by
  obtain ⟨hp, hf, -, -, hwheel, hfeeder⟩ := execute_autonomous_commands (s := s) h
  exact ⟨⟨hp.trans hs.1, hf.trans hs.2⟩, hwheel hs.1, hfeeder hs.2⟩

end Autonomous

end SparxRobot.Shooter
