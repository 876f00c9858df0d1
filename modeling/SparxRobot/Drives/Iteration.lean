import SparxRobot.Drives.Execute

/-! What an iteration and the commands do to the drive state and to `autoReady`, the two
fields `isAutoDone` reads. -/
namespace SparxRobot.Drives

variable {R : Type*} [Field R] [LinearOrder R]

/-- `autoReady` is down throughout a motion and up while the drives are given away. -/
def Sound (s : DrivesState R) : Prop :=
  match s.currentDriveState with
  | .autoDriveDistance | .autoDrivePoint | .autoTurn | .autoHold | .autoStop => s.autoReady = false
  | .teleop | .disabled => s.autoReady = true
  | .standby | .autoAbort => True

/-- The drives stand in standby. -/
def Halted (s : DrivesState R) : Prop :=
  s.currentDriveState = .standby ∧ s.rightWantedSpeed = 0 ∧ s.leftWantedSpeed = 0

/-- An abort is pending, or has been carried out. -/
def Halting (s : DrivesState R) : Prop := s.currentDriveState = .autoAbort ∨ Halted s

theorem isAutoDone_eq_false {s : DrivesState R} :
    isAutoDone s = false ↔ s.currentDriveState ≠ .standby ∧ s.autoReady = false := by
  simp [isAutoDone]

theorem isAutoDone_of_autoReady {s : DrivesState R} (h : s.autoReady = true) :
    isAutoDone s = true := by simp [isAutoDone, h]

section Frame

variable (r : DrivesReading R) (brake : Bool) (s : DrivesState R)

private theorem setPower_kept :
    (setPower r brake s).currentDriveState = s.currentDriveState ∧
      (setPower r brake s).autoReady = s.autoReady ∧
      (setPower r brake s).rightWantedSpeed = s.rightWantedSpeed ∧
      (setPower r brake s).leftWantedSpeed = s.leftWantedSpeed ∧
      (setPower r brake s).driveDone = s.driveDone := by
  unfold setPower
  split
  · simp
  · split <;> simp

variable [FloorRing R] [JavaMath R]

theorem execute_currentDriveState :
    (execute r s).currentDriveState = (runState r (sense r s)).currentDriveState :=
  (setPower_kept r _ _).1

theorem execute_autoReady : (execute r s).autoReady = (runState r (sense r s)).autoReady :=
  (setPower_kept r _ _).2.1

theorem execute_rightWantedSpeed :
    (execute r s).rightWantedSpeed = (runState r (sense r s)).rightWantedSpeed :=
  (setPower_kept r _ _).2.2.1

theorem execute_leftWantedSpeed :
    (execute r s).leftWantedSpeed = (runState r (sense r s)).leftWantedSpeed :=
  (setPower_kept r _ _).2.2.2.1

theorem execute_driveDone : (execute r s).driveDone = (runState r (sense r s)).driveDone :=
  (setPower_kept r _ _).2.2.2.2

theorem execute_isAutoDone : isAutoDone (execute r s) = isAutoDone (runState r (sense r s)) := by
  simp only [isAutoDone, execute_currentDriveState, execute_autoReady]

/-- Beyond the switch an iteration sets powers and remembers what it has sensed. -/
theorem execute_eq : execute r s =
    { runState r (sense r s) with
      rightPID := (execute r s).rightPID
      leftPID := (execute r s).leftPID
      rightSetPower := (execute r s).rightSetPower
      leftSetPower := (execute r s).leftSetPower
      rightBrakeMode := (execute r s).rightBrakeMode
      leftBrakeMode := (execute r s).leftBrakeMode
      rightMotorFront := (execute r s).rightMotorFront
      rightMotorBack := (execute r s).rightMotorBack
      leftMotorFront := (execute r s).leftMotorFront
      leftMotorBack := (execute r s).leftMotorBack
      rightPreviousDistance := (execute r s).rightPreviousDistance
      leftPreviousDistance := (execute r s).leftPreviousDistance
      previousX := (execute r s).previousX
      previousY := (execute r s).previousY
      previousAngle := (execute r s).previousAngle } := by
  unfold execute remember setPower
  dsimp only
  split
  · rfl
  · split <;> rfl

theorem execute_wantedSpeed : (execute r s).wantedSpeed = (runState r (sense r s)).wantedSpeed := by
  rw [execute_eq]

@[simp] theorem sense_currentDriveState :
    (sense r s).currentDriveState = s.currentDriveState := rfl

@[simp] theorem sense_autoReady : (sense r s).autoReady = s.autoReady := rfl

theorem sense_currentX : (sense r s).currentX = s.currentX +
    JavaMath.sin (Java.toRadians (sense r s).currentAngle) * (sense r s).averageDistance := rfl

theorem sense_currentY : (sense r s).currentY = s.currentY +
    JavaMath.cos (Java.toRadians (sense r s).currentAngle) * (sense r s).averageDistance := rfl

@[simp] theorem sense_isAutoDone : isAutoDone (sense r s) = isAutoDone s := rfl

end Frame

section Motions

variable (r : DrivesReading R) (s : DrivesState R)

/-- A drive goes on with `autoReady` down, or ends in standby with it up. -/
def GoesOnOrEnds (was : DriveState) (t : DrivesState R) : Prop :=
  (t.currentDriveState = was ∧ t.autoReady = false) ∨
    (t.currentDriveState = .standby ∧ t.autoReady = true)

theorem driveDistance_ends : GoesOnOrEnds s.currentDriveState (driveDistance r s) := by
  unfold driveDistance
  extract_lets _ _ _ _ _ t
  split
  · exact .inr ⟨rfl, rfl⟩
  · exact .inl ⟨rfl, rfl⟩

theorem drivePoint_ends [FloorRing R] [JavaMath R] :
    GoesOnOrEnds s.currentDriveState (drivePoint r s) := by
  unfold drivePoint
  extract_lets
  split
  · exact .inr ⟨rfl, rfl⟩
  · exact .inl ⟨rfl, rfl⟩

theorem turn_ends [FloorRing R] : GoesOnOrEnds s.currentDriveState (turn s) := by
  unfold turn
  extract_lets
  split
  · exact .inr ⟨rfl, rfl⟩
  · split <;> exact .inl ⟨rfl, rfl⟩

theorem stopDrives_ends : GoesOnOrEnds .autoStop (stopDrives s).1 := by
  unfold stopDrives
  extract_lets
  split
  · exact .inr ⟨rfl, rfl⟩
  · exact .inl ⟨rfl, rfl⟩

theorem stopDrives_answer : (stopDrives s).2 = isAutoDone (stopDrives s).1 := by
  unfold stopDrives
  extract_lets
  split <;> rfl

/-- The commands of a hold are refused, as `autoReady` was cleared just before. -/
theorem hold_eq (h : s.currentDriveState = .autoHold) : hold r s =
    { s with
      currentDriveState := if s.turnDone then .standby else .autoHold
      autoReady := s.turnDone } := by
  have hbusy : isAutoDone { s with autoReady := false } = false := by simp [isAutoDone, h]
  unfold hold
  simp only [autoDriveDistance, autoTurnToHeading, hbusy, Bool.not_false, ↓reduceIte, ite_self]
  cases s.turnDone <;> simp [h]

theorem hold_ends (h : s.currentDriveState = .autoHold) : GoesOnOrEnds .autoHold (hold r s) := by
  rw [hold_eq r s h]
  cases ht : s.turnDone
  · exact .inl ⟨rfl, rfl⟩
  · exact .inr ⟨rfl, rfl⟩

theorem diagnostics_eq : diagnostics r s =
    { s with
      rightMotorFront := (diagnostics r s).rightMotorFront
      rightMotorBack := (diagnostics r s).rightMotorBack
      leftMotorFront := (diagnostics r s).leftMotorFront
      leftMotorBack := (diagnostics r s).leftMotorBack
      diagnosticTime := (diagnostics r s).diagnosticTime
      currentDiagnosticState := (diagnostics r s).currentDiagnosticState } := by
  unfold diagnostics
  (repeat' split) <;> rfl

theorem setTankSpeed_eq (right left : R) (isInverted : Bool) :
    setTankSpeed right left isInverted s =
      { s with
        rightWantedSpeed := (setTankSpeed right left isInverted s).rightWantedSpeed
        leftWantedSpeed := (setTankSpeed right left isInverted s).leftWantedSpeed } := by
  unfold setTankSpeed
  split <;> rfl

/-- Teleop reads the sticks and the buttons and tests the motors, and does nothing else. -/
theorem teleop_eq : teleop r s =
    { s with
      rightWantedSpeed := (teleop r s).rightWantedSpeed
      leftWantedSpeed := (teleop r s).leftWantedSpeed
      isInverse := (teleop r s).isInverse
      invertSeen := (teleop r s).invertSeen
      isDiagnostic := (teleop r s).isDiagnostic
      rightMotorFront := (teleop r s).rightMotorFront
      rightMotorBack := (teleop r s).rightMotorBack
      leftMotorFront := (teleop r s).leftMotorFront
      leftMotorBack := (teleop r s).leftMotorBack
      diagnosticTime := (teleop r s).diagnosticTime
      currentDiagnosticState := (teleop r s).currentDiagnosticState } := by
  unfold teleop
  extract_lets _ t u
  rw [setTankSpeed_eq]
  unfold u
  cases r.backPressed
  · rfl
  · simp only [↓reduceIte]
    rw [diagnostics_eq]

theorem teleop_kept : (teleop r s).currentDriveState = s.currentDriveState ∧
    (teleop r s).autoReady = s.autoReady ∧ (teleop r s).driveDone = s.driveDone := by
  rw [teleop_eq]
  exact ⟨rfl, rfl, rfl⟩

theorem Sound.of_goesOnOrEnds {was : DriveState} {t : DrivesState R}
    (hw : was ≠ .teleop ∧ was ≠ .disabled) (h : GoesOnOrEnds was t) : Sound t := by
  rcases h with ⟨hs, hr⟩ | ⟨hs, -⟩
  · unfold Sound
    rw [hs]
    cases was <;> simp_all
  · simp [Sound, hs]

end Motions

section Kept

variable (r : DrivesReading R) {s : DrivesState R}

/-- What the switch over the drive state never touches: what a command has asked for, and
where the robot is. -/
structure Kept (s t : DrivesState R) : Prop where
  wantedDistance : t.wantedDistance = s.wantedDistance
  wantedAngle : t.wantedAngle = s.wantedAngle
  initialHeading : t.initialHeading = s.initialHeading
  endX : t.endX = s.endX
  endY : t.endY = s.endY
  gyroZero : t.gyroZero = s.gyroZero
  currentX : t.currentX = s.currentX
  currentY : t.currentY = s.currentY
  currentAngle : t.currentAngle = s.currentAngle

variable [FloorRing R] [JavaMath R]

/-- Outside of teleop the switch writes what belongs to the motions, and stops the motors. -/
theorem runState_eq (h : s.currentDriveState ≠ .teleop) : runState r s =
    { s with
      currentDriveState := (runState r s).currentDriveState
      autoReady := (runState r s).autoReady
      turnDone := (runState r s).turnDone
      driveDone := (runState r s).driveDone
      wantedSpeed := (runState r s).wantedSpeed
      rightWantedSpeed := (runState r s).rightWantedSpeed
      leftWantedSpeed := (runState r s).leftWantedSpeed
      rightSetPower := (runState r s).rightSetPower
      leftSetPower := (runState r s).leftSetPower
      rightMotorFront := (runState r s).rightMotorFront
      rightMotorBack := (runState r s).rightMotorBack
      leftMotorFront := (runState r s).leftMotorFront
      leftMotorBack := (runState r s).leftMotorBack
      averageDistance := (runState r s).averageDistance
      angleOffset := (runState r s).angleOffset
      straightCorrection := (runState r s).straightCorrection
      distanceToGo := (runState r s).distanceToGo
      angleToEnd := (runState r s).angleToEnd
      calculatedDistance := (runState r s).calculatedDistance
      offsetCorrection := (runState r s).offsetCorrection
      distanceToPoint := (runState r s).distanceToPoint } := by
  unfold runState
  cases hc : s.currentDriveState <;> dsimp only
  case standby => (repeat' split) <;> simp
  case autoDriveDistance =>
    unfold driveDistance
    extract_lets
    split <;> rfl
  case autoDrivePoint =>
    unfold drivePoint
    extract_lets
    split <;> rfl
  case autoTurn =>
    unfold turn
    extract_lets
    (repeat' split) <;> rfl
  case autoHold => rw [hold_eq r s hc]
  case autoStop =>
    unfold stopDrives
    extract_lets
    split <;> rfl
  case autoAbort => rfl
  case teleop => exact absurd hc h

theorem runState_teleop (h : s.currentDriveState = .teleop) : runState r s = teleop r s := by
  rw [runState, h]

theorem runState_keeps : Kept s (runState r s) := by
  by_cases h : s.currentDriveState = .teleop
  · rw [runState_teleop r h, teleop_eq]
    exact ⟨rfl, rfl, rfl, rfl, rfl, rfl, rfl, rfl, rfl⟩
  · rw [runState_eq r h]
    exact ⟨rfl, rfl, rfl, rfl, rfl, rfl, rfl, rfl, rfl⟩

/-- An iteration leaves what it has sensed and what it was asked for alone. -/
theorem execute_keeps : Kept (sense r s) (execute r s) := by
  obtain ⟨h1, h2, h3, h4, h5, h6, h7, h8, h9⟩ := runState_keeps r (s := sense r s)
  rw [execute_eq]
  exact ⟨h1, h2, h3, h4, h5, h6, h7, h8, h9⟩

end Kept

section Execute

variable [FloorRing R] [JavaMath R] {r : DrivesReading R} {s : DrivesState R}

/-- Drives that are done stay done. -/
private theorem runState_done (hs : Sound s) (hd : isAutoDone s = true) :
    Sound (runState r s) ∧ isAutoDone (runState r s) = true := by
  unfold Sound at hs
  unfold runState
  cases hc : s.currentDriveState <;> simp only [hc] at hs ⊢
  case standby =>
    split
    · exact ⟨rfl, rfl⟩
    · split
      · exact ⟨rfl, rfl⟩
      · exact ⟨by simp [Sound], by simp [isAutoDone]⟩
  case autoAbort | disabled => exact ⟨trivial, rfl⟩
  case teleop =>
    obtain ⟨h1, h2, -⟩ := teleop_kept r s
    exact ⟨by simp [Sound, h1, h2, hc, hs], isAutoDone_of_autoReady (h2.trans hs)⟩
  all_goals simp [isAutoDone, hc, hs] at hd

/-- Busy drives go on with what they are at or come to a standby. -/
private theorem runState_busy (hs : Sound s) (hb : isAutoDone s = false) :
    ((runState r s).currentDriveState = s.currentDriveState ∧ (runState r s).autoReady = false) ∨
      (runState r s).currentDriveState = .standby := by
  obtain ⟨hstate, hready⟩ := isAutoDone_eq_false.mp hb
  unfold Sound at hs
  unfold runState
  cases hc : s.currentDriveState <;> simp only [hc] at hs ⊢
  case standby => exact absurd hc hstate
  case autoDriveDistance => exact (hc ▸ driveDistance_ends r s).imp_right And.left
  case autoDrivePoint => exact (hc ▸ drivePoint_ends r s).imp_right And.left
  case autoTurn => exact (hc ▸ turn_ends s).imp_right And.left
  case autoHold => exact (hold_ends r s hc).imp_right And.left
  case autoStop => exact (stopDrives_ends s).imp_right And.left
  case autoAbort => exact .inr trivial
  case teleop | disabled => simp [hs] at hready

theorem Sound.execute (hs : Sound s) : Sound (execute r s) := by
  have key : Sound (runState r (sense r s)) := by
    cases hd : isAutoDone s with
    | true => exact (runState_done (s := sense r s) hs hd).1
    | false =>
      rcases runState_busy (r := r) (s := sense r s) hs hd with ⟨hc, hr⟩ | hc
      · unfold Sound at hs ⊢
        rw [hc, hr]
        obtain ⟨-, hready⟩ := isAutoDone_eq_false.mp hd
        rw [hready] at hs
        exact hs
      · simp [Sound, hc]
  unfold Sound at key ⊢
  rwa [execute_currentDriveState, execute_autoReady]

theorem execute_done (hs : Sound s) (hd : isAutoDone s = true) :
    isAutoDone (execute r s) = true := by
  rw [execute_isAutoDone]
  exact (runState_done (s := sense r s) hs hd).2

/-- The only iteration after which busy drives are done is one that ends in standby. -/
theorem execute_finishes (hs : Sound s) (hb : isAutoDone s = false)
    (hd : isAutoDone (execute r s) = true) : (execute r s).currentDriveState = .standby := by
  rw [execute_isAutoDone] at hd
  rw [execute_currentDriveState]
  rcases runState_busy (r := r) (s := sense r s) hs hb with ⟨hc, hr⟩ | hc
  · have hstate := (isAutoDone_eq_false.mp hb).1
    rw [isAutoDone, hc, hr, Bool.or_false, decide_eq_true_eq] at hd
    exact absurd hd hstate
  · exact hc

private theorem execute_of_abort (h : s.currentDriveState = .autoAbort) :
    Halted (execute r s) := by
  have hrun : runState r (sense r s) =
      { abort (sense r s) with currentDriveState := .standby } := by
    rw [runState, sense_currentDriveState, h]
  unfold Halted
  rw [execute_currentDriveState, execute_rightWantedSpeed, execute_leftWantedSpeed, hrun]
  exact ⟨rfl, rfl, rfl⟩

/-- In operator control standby gives the drives to the stick. -/
theorem execute_standby (hr : r.mode = .teleopEnabled) (hs : s.currentDriveState = .standby) :
    (execute r s).currentDriveState = .teleop ∧ (execute r s).autoReady = true ∧
      (execute r s).driveDone = s.driveDone := by
  have hrun : runState r (sense r s) =
      { sense r s with autoReady := true, currentDriveState := .teleop } := by
    rw [runState, sense_currentDriveState, hs, hr]
    rfl
  rw [execute_currentDriveState, execute_autoReady, execute_driveDone, hrun]
  exact ⟨rfl, rfl, rfl⟩

/-- In enabled autonomous an iteration carries an abort out, and the drives stay halted. -/
theorem execute_halts (he : r.mode.isEnabled = true) (ha : r.mode.isAutonomous = true)
    (h : Halting s) : Halted (execute r s) := by
  rcases h with h | ⟨h, hright, hleft⟩
  · exact execute_of_abort h
  · have hd : r.mode.isDisabled = false := by
      simp [Mode.isDisabled, show r.mode.enabled = true from he]
    have hrun : runState r (sense r s) = { sense r s with autoReady := true } := by
      simp [runState, h, hd, Mode.not_operatorControl_of_autonomous ha]
    unfold Halted
    rw [execute_currentDriveState, execute_rightWantedSpeed, execute_leftWantedSpeed, hrun]
    exact ⟨h, hright, hleft⟩

end Execute

section Commands

variable {s : DrivesState R}

theorem Sound.stopDrives : Sound (stopDrives s).1 :=
  .of_goesOnOrEnds ⟨by decide, by decide⟩ (stopDrives_ends s)

theorem Sound.abortAuto : Sound (abortAuto s) := trivial

theorem abortAuto_busy (h : isAutoDone s = false) : isAutoDone (abortAuto s) = false := by
  simp [isAutoDone, Drives.abortAuto, (isAutoDone_eq_false.mp h).2]

end Commands

end SparxRobot.Drives
