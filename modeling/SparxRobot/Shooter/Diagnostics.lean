import Mathlib.Algebra.Order.AbsoluteValue.Basic
import Mathlib.Tactic.Linarith
import SparxRobot.Shooter.Iteration

/-! Who has the last word on the hardware while the operator runs the diagnostics. They write
the flywheel and the turret's target first in an iteration; the boiler switch, the camera, the
turret's stick and the speed control come after them. -/
namespace SparxRobot.Shooter
open Machine

/-- An iteration in operator control with the diagnostics button held and the system off. The
turret's stick is in the range of an axis. -/
def Held : ShooterEvent → Prop
  | .execute r => r.mode.isOperatorControl = true ∧ r.diagnosticsPressed = true ∧
      r.flipSystemOn = false ∧ |r.turretAxis| ≤ 1
  | _ => False

/-- What the turret is driven with towards a target. -/
def turretPower (r : ShooterReading) (target : ℚ) : ℚ :=
  let output : ℚ := if r.relDegrees < target - 0.5 then 0.5
    else if r.relDegrees > target + 0.5 then -0.5 else 0
  let output := output * (0.2 + |r.relDegrees - target| * 0.25)
  if (r.limitRight ∧ output < 0) ∨ (r.limitLeft ∧ output > 0) then 0 else output

/-- The iteration ends with the turret regulated to this target. -/
def RegulatedTo (target : ℚ) (r : ShooterReading) (t : ShooterState) : Prop :=
  t.degreeOff = target ∧ t.turret = turretPower r target

/-- When the iteration ends the hardware is where its diagnostic state has it. -/
def DiagnosticsControl (m : Moment ShooterState ShooterEvent (Option Target)) : Prop :=
  ∀ r, m.input = .execute r →
    (m.post.currentEnum = .flywheelWait → m.post.flyWheel = 0.5) ∧
      (m.post.currentEnum = .turretWait1 → RegulatedTo 5 r m.post) ∧
      (m.post.currentEnum = .turretWait2 → RegulatedTo (-5) r m.post)

/-- The second a diagnostic state waits is over. -/
def Expired (r : ShooterReading) (s : ShooterState) : Prop := s.currentTime + 1000 ≤ r.checkNow

instance (r : ShooterReading) (s : ShooterState) : Decidable (Expired r s) := by
  unfold Expired; infer_instance

/-- The camera has the turret, and happens to put its target there. -/
def CameraAt (target : ℚ) (r : ShooterReading) : Prop :=
  r.flipBoilerShot = false ∧ r.angleToBoiler - 1 = target

/-- The operator has had the turret since before, and does not touch its stick. -/
def LeftAlone (r : ShooterReading) (s : ShooterState) : Prop :=
  r.flipBoilerShot = true ∧ s.manualControl = true ∧ |r.turretAxis| ≤ 0.25

/-- What each diagnostic state needs of the iteration that starts in it. -/
def Unhindered (r : ShooterReading) (s : ShooterState) : Prop :=
  match s.currentEnum with
  | .done => True
  | .flywheel => False
  | .flywheelWait => Expired r s ∧ CameraAt 5 r
  | .turretWait1 => (Expired r s → CameraAt (-5) r) ∧
      (¬ Expired r s → CameraAt 5 r ∨ LeftAlone r s)
  | .turretWait2 => ¬ Expired r s → CameraAt (-5) r ∨ LeftAlone r s

/-- The moment is no iteration, or one whose start has what it needs. -/
def StartsUnhindered (m : Moment ShooterState ShooterEvent (Option Target)) : Prop :=
  ∀ r, m.input = .execute r → Unhindered r m.pre

/-- The stick's part in the turret's target. -/
def nudge (r : ShooterReading) (target : ℚ) : ℚ :=
  let d := if r.turretAxis < -0.25 ∨ r.turretAxis > 0.25 then target - r.turretAxis / 3
    else target
  if d < -20 then -20 else if d > 20 then 20 else d

section Nudge

variable {r : ShooterReading} {d : ℚ}

theorem nudge_of_mem (hd : |d| ≤ 19) (hr : |r.turretAxis| ≤ 1) :
    nudge r d = if |r.turretAxis| ≤ 0.25 then d else d - r.turretAxis / 3 := by
  obtain ⟨hd₁, hd₂⟩ := abs_le.mp hd
  obtain ⟨hr₁, hr₂⟩ := abs_le.mp hr
  have hcentred : (r.turretAxis < -0.25 ∨ r.turretAxis > 0.25) ↔ ¬ |r.turretAxis| ≤ 0.25 := by
    rw [abs_le, not_and_or, not_le, not_le]
  unfold nudge
  simp only [hcentred]
  by_cases hc : |r.turretAxis| ≤ 0.25
  · rw [if_neg (not_not.mpr hc), if_pos hc, if_neg (by linarith), if_neg (by linarith)]
  · rw [if_pos hc, if_neg hc, if_neg (by linarith), if_neg (by linarith)]

/-- Only a centred stick leaves a target alone. -/
theorem nudge_eq_self_iff (hd : |d| ≤ 19) (hr : |r.turretAxis| ≤ 1) :
    nudge r d = d ↔ |r.turretAxis| ≤ 0.25 := by
  rw [nudge_of_mem hd hr]
  split
  · next hc => exact iff_of_true rfl hc
  · next hc =>
    refine iff_of_false (fun heq => hc ?_) hc
    have hzero : r.turretAxis = 0 := by linarith
    rw [hzero, abs_zero]
    norm_num

/-- One iteration does not bring a target to another one far from it. -/
theorem nudge_ne {target : ℚ} (hd : |d| ≤ 19) (hr : |r.turretAxis| ≤ 1) (h : 1 < |target - d|) :
    nudge r d ≠ target := by
  rw [nudge_of_mem hd hr]
  obtain ⟨hr₁, hr₂⟩ := abs_le.mp hr
  rintro rfl
  rw [lt_abs] at h
  split at h
  · rcases h with h | h <;> linarith
  · rcases h with h | h <;> linarith

end Nudge

section Iteration

variable (r : ShooterReading) (s : ShooterState)

theorem turretCtrl_degreeOff : (turretCtrl r s).1.degreeOff =
    if s.visionOff || s.manualControl then nudge r s.degreeOff else s.degreeOff := rfl

theorem execute_currentEnum : (execute r s).1.currentEnum = (sense r s).currentEnum := by
  rw [execute_eq_atSpeedCtrl, atSpeedCtrl_eq, atTurretCtrl_eq, readCommand_eq]

theorem execute_degreeOff : (execute r s).1.degreeOff =
    (turretCtrl r (atTurretCtrl r s)).1.degreeOff := by
  rw [execute_eq_atSpeedCtrl, atSpeedCtrl]

/-- The turret's target is what it is driven towards. -/
theorem execute_turret : (execute r s).1.turret = turretPower r (execute r s).1.degreeOff := by
  have hdegree : (atTurretCtrl r s).turretDegreeCurrent = r.relDegrees := by
    rw [atTurretCtrl_eq, readCommand_eq, sense_eq]
  have hturret : (execute r s).1.turret = (turretCtrl r (atTurretCtrl r s)).1.turretOutput := by
    rw [execute_eq_atSpeedCtrl, atSpeedCtrl]
  rw [hturret, execute_degreeOff]
  simp only [turretCtrl, turretPower, hdegree]

variable {r}

theorem sense_held (hr : Held (.execute r)) : sense r s = diagnostics r
    { s with shootingSpeedCurrent := r.speedCurrent, turretDegreeCurrent := r.relDegrees } := by
  simp only [sense, hr.2.1, if_true]

omit s in
theorem held_not_autonomous (hr : Held (.execute r)) : r.mode.isAutonomous = false := by
  by_contra h
  have hnot := Mode.not_operatorControl_of_autonomous (Bool.of_not_eq_false h)
  exact Bool.noConfusion (hnot.symm.trans hr.1)

/-- What a held iteration makes of the command fields: the system stays off, and the switch
decides who has the turret. -/
theorem readCommand_held (hr : Held (.execute r)) :
    (readCommand r s).visionOff = false ∧ (readCommand r s).isPressed = false ∧
      (readCommand r s).manualControl = r.flipBoilerShot ∧
      (readCommand r s).degreeOff =
        if r.flipBoilerShot && !s.manualControl then 0 else s.degreeOff := by
  unfold readCommand
  simp only [held_not_autonomous hr, hr.1, hr.2.2.1]
  cases r.flipBoilerShot <;> cases s.manualControl <;> exact ⟨rfl, rfl, rfl, rfl⟩

/-- The speed control stops the flywheel of a system that is off. -/
theorem execute_flyWheel_held (hr : Held (.execute r)) : (execute r s).1.flyWheel = 0 := by
  have hoff : (atSpeedCtrl r s).isPressed = false := by
    rw [atSpeedCtrl_eq, atTurretCtrl_eq]
    exact (readCommand_held (sense r s) hr).2.1
  exact speedCtrl_off r _ hoff

/-- The turret's target at the end: the camera's, or with the switch on what the diagnostics
set, if it was on before, and the stick's part. -/
theorem execute_degreeOff_held (hr : Held (.execute r)) : (execute r s).1.degreeOff =
    if r.flipBoilerShot then nudge r (if s.manualControl then (sense r s).degreeOff else 0)
    else r.angleToBoiler - 1 := by
  obtain ⟨hvision, -, hmanual, hdegree⟩ := readCommand_held (sense r s) hr
  have hkept : (sense r s).manualControl = s.manualControl := by rw [sense_eq]
  rw [hkept] at hdegree
  have hturret : (atTurretCtrl r s).visionOff = false ∧
      (atTurretCtrl r s).manualControl = r.flipBoilerShot ∧
      (atTurretCtrl r s).degreeOff = (aim r (readCommand r (sense r s))).degreeOff := by
    rw [atTurretCtrl_eq]
    exact ⟨hvision, hmanual, rfl⟩
  rw [execute_degreeOff, turretCtrl_degreeOff, hturret.1, hturret.2.1, hturret.2.2]
  cases hflip : r.flipBoilerShot with
  | true =>
    have haim : (aim r (readCommand r (sense r s))).degreeOff =
        (readCommand r (sense r s)).degreeOff := by simp [aim, hmanual, hflip]
    rw [haim, hdegree, hflip]
    cases s.manualControl <;> rfl
  | false => simp [aim, hmanual, hflip, hvision, held_not_autonomous hr]

/-- The turret is regulated to a target exactly when the camera happens to put it there, or
the operator leaves it alone where the diagnostics have it already. -/
theorem regulatedTo_iff (hr : Held (.execute r)) (target : ℚ) (ht : |target| ≤ 19)
    (hd : (sense r s).degreeOff = target ∨
      |(sense r s).degreeOff| ≤ 19 ∧ 1 < |target - (sense r s).degreeOff|)
    (hzero : 1 < |target|) :
    RegulatedTo target r (execute r s).1 ↔
      CameraAt target r ∨ (LeftAlone r s ∧ (sense r s).degreeOff = target) := by
  have hregulated : RegulatedTo target r (execute r s).1 ↔ (execute r s).1.degreeOff = target := by
    refine ⟨fun h => h.1, fun h => ⟨h, ?_⟩⟩
    rw [execute_turret, h]
  rw [hregulated, execute_degreeOff_held s hr]
  unfold CameraAt LeftAlone
  cases r.flipBoilerShot with
  | false => simp
  | true =>
    cases s.manualControl with
    | false => simpa using nudge_ne (by norm_num) hr.2.2.2 (by simpa using hzero)
    | true =>
      rcases hd with hd | ⟨hd, hfar⟩
      · simpa [hd] using nudge_eq_self_iff ht hr.2.2.2
      · have hne : (sense r s).degreeOff ≠ target := by
          rintro rfl
          norm_num at hfar
        simpa [hne] using nudge_ne hd hr.2.2.2 hfar

end Iteration

section Run

variable {r : ShooterReading}

/-- Where the diagnostics are, and the target they have set, after the part of an iteration
they run in. -/
theorem sense_steps (s : ShooterState) (hr : Held (.execute r)) :
    ((sense r s).currentEnum, (sense r s).degreeOff) =
      match s.currentEnum with
      | .done => (.done, r.relDegrees)
      | .flywheel => (.flywheelWait, s.degreeOff)
      | .flywheelWait => (if Expired r s then .turretWait1 else .flywheelWait, 0)
      | .turretWait1 => (if Expired r s then .turretWait2 else .turretWait1, 5)
      | .turretWait2 => (if Expired r s then .done else .turretWait2, -5) := by
  have hwaits : r.checkNow < s.currentTime + 1000 ↔ ¬ Expired r s := not_le.symm
  rw [sense_held s hr]
  unfold diagnostics
  by_cases hx : Expired r s
  · simp only [hwaits, hx, not_true, if_true, if_false]
    cases s.currentEnum <;> rfl
  · simp only [hwaits, hx, not_false_iff, if_true, if_false]
    cases s.currentEnum <;> rfl

/-- An iteration leaves the diagnostics in control exactly when its start has what their
state needs. -/
theorem diagnosticsControl_iff (s : ShooterState) (hr : Held (.execute r)) :
    DiagnosticsControl (moment shooterStep s (.execute r)) ↔
      StartsUnhindered (moment shooterStep s (.execute r)) := by
  have hpost : (moment shooterStep s (.execute r)).post = (execute r s).1 := rfl
  have hwheel : ¬ (execute r s).1.flyWheel = 0.5 := by
    rw [execute_flyWheel_held s hr]
    norm_num
  simp only [DiagnosticsControl, StartsUnhindered, moment_input, moment_pre, hpost,
    ShooterEvent.execute.injEq, forall_eq', execute_currentEnum, hwheel]
  have hsteps := sense_steps s hr
  unfold Unhindered
  cases hc : s.currentEnum with
  | done =>
    rw [hc] at hsteps
    obtain ⟨henum, -⟩ := Prod.mk.inj hsteps
    simp [henum]
  | flywheel =>
    rw [hc] at hsteps
    obtain ⟨henum, -⟩ := Prod.mk.inj hsteps
    simp [henum]
  | flywheelWait =>
    rw [hc] at hsteps
    obtain ⟨henum, hdegree⟩ := Prod.mk.inj hsteps
    have hfive := regulatedTo_iff s hr 5 (by norm_num) (.inr (by norm_num [hdegree])) (by norm_num)
    have hnot : (sense r s).degreeOff ≠ 5 := by norm_num [hdegree]
    by_cases hx : Expired r s
    · simp [henum, hx, hfive, hnot]
    · simp [henum, hx]
  | turretWait1 =>
    rw [hc] at hsteps
    obtain ⟨henum, hdegree⟩ := Prod.mk.inj hsteps
    have hfive := regulatedTo_iff s hr 5 (by norm_num) (.inl hdegree) (by norm_num)
    have hminus := regulatedTo_iff s hr (-5) (by norm_num) (.inr (by norm_num [hdegree]))
      (by norm_num)
    have hnot : (sense r s).degreeOff ≠ -5 := by norm_num [hdegree]
    by_cases hx : Expired r s
    · simp [henum, hx, hminus, hnot]
    · simp [henum, hx, hfive, hdegree]
  | turretWait2 =>
    rw [hc] at hsteps
    obtain ⟨henum, hdegree⟩ := Prod.mk.inj hsteps
    have hminus := regulatedTo_iff s hr (-5) (by norm_num) (.inl hdegree) (by norm_num)
    by_cases hx : Expired r s
    · simp [henum, hx]
    · simp [henum, hx, hminus, hdegree]

/-- Over every run of held iterations from any state, the diagnostics control the hardware
they test exactly when every iteration starts with what its diagnostic state needs. -/
theorem diagnostics_control_iff (s : ShooterState) (events : List ShooterEvent)
    (hheld : ∀ e ∈ events, Held e) :
    (∀ m ∈ trace shooterStep s events, DiagnosticsControl m) ↔
      ∀ m ∈ trace shooterStep s events, StartsUnhindered m := by
  apply forall₂_congr
  intro m hm
  have hin := hheld _ (input_mem_of_mem hm)
  rw [eq_moment_of_mem hm]
  cases hi : m.input with
  | execute r =>
    rw [hi] at hin
    exact diagnosticsControl_iff m.pre hin
  | shooterSystemState | shooterSystemFire | shooterSetTurret =>
    rw [hi] at hin
    exact absurd hin id

/-- The diagnostics button is held with the system off. -/
def heldReading : ShooterReading := { mode := .teleopEnabled, diagnosticsPressed := true }

/-- The shooter after an iteration without the button. -/
def readyForDiagnostics : ShooterState := final shooterStep {} [.execute {}]

theorem heldReading_held : ∀ e ∈ [ShooterEvent.execute heldReading], Held e := by
  intro e he
  obtain rfl := List.mem_singleton.mp he
  exact ⟨rfl, rfl, rfl, by norm_num [heldReading]⟩

theorem diagnostics_control_iff_ready :
    (∀ m ∈ trace shooterStep readyForDiagnostics [.execute heldReading], DiagnosticsControl m) ↔
      ∀ m ∈ trace shooterStep readyForDiagnostics [.execute heldReading], StartsUnhindered m :=
  diagnostics_control_iff _ _ heldReading_held

/-- The flywheel the diagnostics have just started is stopped in the same iteration. -/
theorem flywheel_not_tested :
    ¬ ∀ s events, Reachable s → (∀ e ∈ events, Held e) →
      ∀ m ∈ trace shooterStep s events, DiagnosticsControl m := by
  intro hall
  have hlast := hall readyForDiagnostics [.execute heldReading] ⟨_, rfl⟩ heldReading_held _
    (.head _) heldReading rfl
  exact absurd (hlast.1 (by decide +kernel)) (by decide +kernel)

end Run

end SparxRobot.Shooter
