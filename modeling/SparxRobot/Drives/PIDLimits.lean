import SparxRobot.Drives.Command
import Mathlib.Tactic.Linarith
import Mathlib.Tactic.Ring

/-! The limits on drive power. The controllers are given limits and never told to keep to
them, so power stays in range only while the accumulated error leaves it the room. -/
namespace SparxRobot.Drives
open Machine

variable {R : Type*} [Field R]

namespace PID

/-- What the setters of a controller set. -/
structure SameSettings (p q : PID R) : Prop where
  kp : q.kp = p.kp
  ki : q.ki = p.ki
  kf : q.kf = p.kf
  outMax : q.outMax = p.outMax
  outMin : q.outMin = p.outMin
  spRampLimit : q.spRampLimit = p.spRampLimit
  loopTimeLimit : q.loopTimeLimit = p.loopTimeLimit
  spRamping : q.spRamping = p.spRamping
  outMaxMinEna : q.outMaxMinEna = p.outMaxMinEna
  stopFunction : q.stopFunction = p.stopFunction

theorem SameSettings.refl (p : PID R) : SameSettings p p :=
  ⟨rfl, rfl, rfl, rfl, rfl, rfl, rfl, rfl, rfl, rfl⟩

theorem SameSettings.trans {p q r : PID R} (h : SameSettings p q) (h' : SameSettings q r) :
    SameSettings p r :=
  ⟨h'.1.trans h.1, h'.2.trans h.2, h'.3.trans h.3, h'.4.trans h.4, h'.5.trans h.5,
    h'.6.trans h.6, h'.7.trans h.7, h'.8.trans h.8, h'.9.trans h.9, h'.10.trans h.10⟩

variable [LinearOrder R]

/-- The time a call accounts for. -/
def elapsedTime (now : ℤ) (p : PID R) : R :=
  if now / 1000.0 - p.pastTime > p.loopTimeLimit then p.loopTimeLimit
  else now / 1000.0 - p.pastTime

/-- The error a call sees: it is measured from the ramped set point. -/
def error (now : ℤ) (speed setPoint : R) (p : PID R) : R :=
  p.ramp (p.elapsedTime now) setPoint - speed

/-- The accumulated error, with the error of this call and `ki` to weigh it, leaves the
proportional and the forward part the room they need within the limit. -/
def HasRoom (p : PID R) (limit : R) (now : ℤ) (speed setPoint : R) : Prop :=
  let error := p.error now speed setPoint
  let direct := error * p.kp + p.kf * setPoint
  p.totalizer + error * p.elapsedTime now ∈
    Set.Icc ((-limit - direct) / p.ki) ((limit - direct) / p.ki)

variable (now : ℤ) (speed setPoint : R) (p : PID R)

/-- A call without limiting. -/
theorem loop_output [IsStrictOrderedRing R] (h : p.outMaxMinEna = false) :
    (p.loop now speed setPoint).2 =
      if setPoint = 0 ∧ p.stopFunction = true then 0
      else p.error now speed setPoint * p.kp +
        (p.totalizer + p.error now speed setPoint * p.elapsedTime now) * p.ki +
        p.kf * setPoint := by
  have hthousand : (1000.0 : R) = 1000 := by norm_num
  by_cases hstop : setPoint = 0 ∧ p.stopFunction = true
  · simp [loop, hstop]
  · simp only [loop, hstop, h, ↓reduceIte, Bool.false_eq_true, error, elapsedTime, hthousand]
    rfl

theorem limitAbove_settings (output : R) : SameSettings p (p.limitAbove output).1 := by
  unfold limitAbove
  split <;> exact ⟨rfl, rfl, rfl, rfl, rfl, rfl, rfl, rfl, rfl, rfl⟩

theorem limitBelow_settings (output : R) : SameSettings p (p.limitBelow output).1 := by
  unfold limitBelow
  split <;> exact ⟨rfl, rfl, rfl, rfl, rfl, rfl, rfl, rfl, rfl, rfl⟩

/-- A call changes no setting. -/
theorem loop_settings : SameSettings p (p.loop now speed setPoint).1 := by
  unfold loop
  extract_lets currentTime elapsed q limited u error totalizer v output
  have hv : SameSettings p v := ⟨rfl, rfl, rfl, rfl, rfl, rfl, rfl, rfl, rfl, rfl⟩
  split
  · exact ⟨rfl, rfl, rfl, rfl, rfl, rfl, rfl, rfl, rfl, rfl⟩
  · split
    · exact (hv.trans (limitAbove_settings v output)).trans (limitBelow_settings _ _)
    · exact hv

/-- Without limiting the output is within a limit exactly when there is room. -/
theorem loop_within_iff [IsStrictOrderedRing R] (h : p.outMaxMinEna = false) (hki : 0 < p.ki)
    {limit : R} (hlimit : 0 ≤ limit) : |(p.loop now speed setPoint).2| ≤ limit ↔
      (setPoint = 0 ∧ p.stopFunction = true) ∨ p.HasRoom limit now speed setPoint := by
  rw [loop_output now speed setPoint p h]
  by_cases hstop : setPoint = 0 ∧ p.stopFunction = true
  · simp [hstop, hlimit]
  · rw [if_neg hstop, or_iff_right hstop, HasRoom, Set.mem_Icc, div_le_iff₀ hki, le_div_iff₀ hki,
      abs_le]
    constructor
    · rintro ⟨hlow, hhigh⟩
      exact ⟨by linarith, by linarith⟩
    · rintro ⟨hlow, hhigh⟩
      exact ⟨by linarith, by linarith⟩

end PID

variable [LinearOrder R]

section Calls

/-- One call of `loop`. -/
structure PIDCall (R : Type*) where
  now : ℤ
  speed : R
  setPoint : R

def pidStep : Step (PID R) (PIDCall R) R
  | p, c => p.loop c.now c.speed c.setPoint

/-- The output is within the limits `init` has set. -/
def WithinLimits (m : Moment (PID R) (PIDCall R) R) : Prop := |m.output| ≤ 0.95

/-- A call asks for no speed, or the accumulated error leaves room within the limits. -/
def LeavesRoom (p : PID R) (c : PIDCall R) : Prop :=
  c.setPoint = 0 ∨ p.HasRoom 0.95 c.now c.speed c.setPoint

variable [IsStrictOrderedRing R]

theorem wheelPID_within_iff {p : PID R} (h : PID.SameSettings (wheelPID R) p) (c : PIDCall R) :
    |(p.loop c.now c.speed c.setPoint).2| ≤ 0.95 ↔ LeavesRoom p c := by
  have hki : p.ki = 0.08 := h.ki
  have hstop : p.stopFunction = true := h.stopFunction
  have hpos : 0 < p.ki := by
    rw [hki]
    norm_num
  rw [p.loop_within_iff c.now c.speed c.setPoint h.outMaxMinEna hpos (by norm_num), hstop,
    and_iff_left rfl]
  rfl

/-- Over every sequence of calls the output stays within the limits exactly when every call
finds room. -/
theorem wheelPID_limited_iff (calls : List (PIDCall ℚ)) :
    (∀ m ∈ trace pidStep (wheelPID ℚ) calls, WithinLimits m) ↔
      ∀ m ∈ trace pidStep (wheelPID ℚ) calls, LeavesRoom m.pre m.input := by
  have hstep : ∀ (p : PID ℚ) c, PID.SameSettings (wheelPID ℚ) p → True →
      PID.SameSettings (wheelPID ℚ) (pidStep p c).1 := by
    intro p c hp _
    exact hp.trans (p.loop_settings c.now c.speed c.setPoint)
  exact forall_trace_congr hstep (fun _ c hp => wheelPID_within_iff hp c) (.refl _)
    fun _ _ => trivial

/-- The first call for a speed of 100 already asks for more than the limit. -/
theorem firstCall_exceeds : ¬ ∀ calls, ∀ m ∈ trace pidStep (wheelPID ℚ) calls, WithinLimits m := by
  intro hall
  have h := hall [⟨1490000000000, 0, 100⟩] _ List.mem_cons_self
  have hoff : (wheelPID ℚ).outMaxMinEna = false := rfl
  rw [WithinLimits, moment_output, pidStep, PID.loop_output _ _ _ _ hoff] at h
  norm_num [wheelPID, PID.mk3, PID.breakMode, PID.setMaxMin, PID.setSPRamp, PID.error,
    PID.elapsedTime, PID.ramp, abs_le] at h

end Calls

section Power

def motors (s : DrivesState R) : List R :=
  [s.rightMotorFront, s.rightMotorBack, s.leftMotorFront, s.leftMotorBack]

/-- Each motor is left alone or set within range. -/
def LeftOrInRange (s t : DrivesState R) : Prop :=
  List.Forall₂ (fun was now => now = was ∨ |now| ≤ 1) (motors s) (motors t)

/-- Outside operator control an iteration sets every motor within range; one that tests the
motors may leave them alone. -/
def PowersInRange (m : DrivesMoment R) : Prop :=
  ∀ r, m.input = .execute r → r.mode.isOperatorControl = false →
    if m.post.isDiagnostic then LeftOrInRange m.pre m.post else ∀ power ∈ motors m.post, |power| ≤ 1

variable (r : DrivesReading R) (s : DrivesState R)

theorem remember_isDiagnostic : (remember s).isDiagnostic = s.isDiagnostic := rfl

theorem motors_remember : motors (remember s) = motors s := rfl

theorem LeftOrInRange.refl : LeftOrInRange s s := List.forall₂_same.mpr fun _ _ => .inl rfl

/-- Outside operator control, with no motor test going on, both sides get what their
controller answers. -/
private theorem setPower_motors (brake : Bool) (hmode : r.mode.isOperatorControl = false)
    (htest : s.isDiagnostic = false) :
    let right := overDeadband (s.rightPID.loop r.rightNow s.rightCurrentSpeed s.rightWantedSpeed).2
    let left := overDeadband (s.leftPID.loop r.leftNow s.leftCurrentSpeed s.leftWantedSpeed).2
    (setPower r brake s).isDiagnostic = false ∧
      motors (setPower r brake s) = [right, right, left, left] := by
  simp [setPower, hmode, htest, motors]

private theorem setPower_testing (brake : Bool) (htest : s.isDiagnostic = true) :
    (setPower r brake s).isDiagnostic = true ∧ motors (setPower r brake s) = motors s := by
  simp [setPower, htest, motors]

/-- Both controllers have the settings `init` gives them. -/
def Configured (s : DrivesState R) : Prop :=
  PID.SameSettings (wheelPID R) s.rightPID ∧ PID.SameSettings (wheelPID R) s.leftPID

private theorem Configured.setPower (h : Configured s) (brake : Bool) :
    Configured (setPower r brake s) := by
  cases htest : s.isDiagnostic
  · cases hmode : r.mode.isOperatorControl <;>
      simp only [Drives.setPower, Configured, htest, hmode, Bool.false_eq_true, ↓reduceIte]
    · exact ⟨h.1.trans (PID.loop_settings _ _ _ _), h.2.trans (PID.loop_settings _ _ _ _)⟩
    · exact h
  · simp only [Drives.setPower, Configured, htest, ↓reduceIte]
    exact h

variable [IsStrictOrderedRing R]

/-- The deadband takes up what the limits leave to the full power. -/
theorem abs_overDeadband_le_iff (power : R) : |overDeadband power| ≤ 1 ↔ |power| ≤ 0.95 := by
  unfold overDeadband
  split_ifs with hneg hpos
  · rw [abs_of_neg hneg, abs_of_neg (by linarith)]
    constructor <;> intro h <;> linarith
  · rw [abs_of_pos hpos, abs_of_pos (by linarith)]
    constructor <;> intro h <;> linarith
  · have hzero : power = 0 := le_antisymm (not_lt.mp hpos) (not_lt.mp hneg)
    rw [hzero, abs_zero]
    norm_num

private theorem diagnostics_motors : (diagnostics r s).rightPID = s.rightPID ∧
    (diagnostics r s).leftPID = s.leftPID ∧ LeftOrInRange s (diagnostics r s) := by
  have hcheck : |CHECK_POWER R| ≤ 1 := by
    rw [CHECK_POWER, abs_le]
    constructor <;> norm_num
  unfold diagnostics
  (repeat' split) <;> refine ⟨rfl, rfl, ?_⟩ <;> simp [LeftOrInRange, motors, hcheck]

private theorem teleop_motors : (teleop r s).rightPID = s.rightPID ∧
    (teleop r s).leftPID = s.leftPID ∧ LeftOrInRange s (teleop r s) := by
  unfold teleop
  extract_lets _ t u
  have hu : u.rightPID = s.rightPID ∧ u.leftPID = s.leftPID ∧ LeftOrInRange s u := by
    unfold u
    split
    · exact diagnostics_motors r _
    · exact ⟨rfl, rfl, .refl s⟩
  unfold setTankSpeed
  split <;> exact hu

variable [FloorRing R] [JavaMath R]

/-- The switch over the drive state leaves the controllers alone and sets no motor out of
range. -/
theorem runState_motors : (runState r s).rightPID = s.rightPID ∧
    (runState r s).leftPID = s.leftPID ∧ LeftOrInRange s (runState r s) := by
  unfold runState
  cases hc : s.currentDriveState <;> dsimp only
  case standby => (repeat' split) <;> exact ⟨rfl, rfl, .refl s⟩
  case autoDriveDistance =>
    unfold driveDistance
    extract_lets
    split <;> exact ⟨rfl, rfl, .refl s⟩
  case autoDrivePoint =>
    unfold drivePoint
    extract_lets
    split <;> exact ⟨rfl, rfl, .refl s⟩
  case autoTurn =>
    unfold turn
    extract_lets
    (repeat' split) <;> exact ⟨rfl, rfl, .refl s⟩
  case autoHold =>
    rw [hold_eq r s hc]
    exact ⟨rfl, rfl, .refl s⟩
  case autoAbort => exact ⟨rfl, rfl, by simp [LeftOrInRange, motors, abort]⟩
  case autoStop =>
    unfold stopDrives
    extract_lets
    split <;> exact ⟨rfl, rfl, .refl s⟩
  case teleop => exact teleop_motors r s
  case disabled => exact ⟨rfl, rfl, .refl s⟩

/-- The calls an iteration outside operator control makes of the controllers find room. -/
def CallsLeaveRoom (m : DrivesMoment R) : Prop :=
  ∀ r, m.input = .execute r → r.mode.isOperatorControl = false →
    let s := runState r (sense r m.pre)
    s.isDiagnostic = false →
      LeavesRoom s.rightPID ⟨r.rightNow, s.rightCurrentSpeed, s.rightWantedSpeed⟩ ∧
        LeavesRoom s.leftPID ⟨r.leftNow, s.leftCurrentSpeed, s.leftWantedSpeed⟩

variable {s}

theorem Configured.runState (h : Configured s) : Configured (runState r s) := by
  obtain ⟨hright, hleft, -⟩ := runState_motors r s
  unfold Configured
  rw [hright, hleft]
  exact h

theorem Configured.execute (h : Configured s) : Configured (execute r s) :=
  Configured.setPower r _ (Configured.runState r (s := sense r s) h) _

/-- An iteration keeps the motors in range exactly when its calls find room. -/
theorem execute_inRange_iff {e : DrivesEvent R} (h : Configured s) :
    PowersInRange (moment drivesStep s e) ↔ CallsLeaveRoom (moment drivesStep s e) := by
  apply forall_congr'
  intro r
  apply forall₂_congr
  intro he hmode
  obtain rfl : e = .execute r := he
  obtain ⟨hright, hleft⟩ := Configured.runState r (s := sense r s) h
  obtain ⟨-, -, hmotors⟩ := runState_motors r (sense r s)
  let t := Drives.runState r (sense r s)
  obtain ⟨brake, hpost⟩ : ∃ brake, (moment Drives.drivesStep s (.execute r)).post =
    remember (Drives.setPower r brake t) := ⟨_, rfl⟩
  rw [hpost, moment_pre, remember_isDiagnostic, LeftOrInRange, motors_remember]
  cases htest : t.isDiagnostic with
  | true =>
    obtain ⟨hdiagnostic, hkept⟩ := setPower_testing r t brake htest
    rw [if_pos hdiagnostic, hkept]
    exact iff_of_true hmotors fun hfalse => Bool.noConfusion (htest.symm.trans hfalse)
  | false =>
    obtain ⟨hdiagnostic, hset⟩ := setPower_motors r t brake hmode htest
    rw [if_neg (Bool.eq_false_iff.mp hdiagnostic), hset]
    simp only [List.mem_cons, List.not_mem_nil, or_false, forall_eq_or_imp, forall_eq,
      abs_overDeadband_le_iff]
    rw [← wheelPID_within_iff hright, ← wheelPID_within_iff hleft]
    constructor
    · rintro ⟨hfront, -, hleftFront, -⟩ -
      exact ⟨hfront, hleftFront⟩
    · intro hlimited
      obtain ⟨hfront, hleftFront⟩ := hlimited htest
      exact ⟨hfront, hfront, hleftFront, hleftFront⟩

theorem Configured.drivesStep (h : Configured s) (e : DrivesEvent R) :
    Configured (drivesStep s e).1 := by
  cases e with
  | execute r => exact h.execute r
  | command c =>
    rw [Drives.drivesStep, issue_eq]
    exact h
  | abortAuto | setStartingCoordinate => exact h
  | stopDrives =>
    rw [Drives.drivesStep, stopDrives]
    split <;> exact h

/-- Over every sequence of calls a controller stays within the limits `init` gives it, and
over every run from power-on the motors stay in range, exactly when every call finds room. -/
theorem powers_limited_iff [JavaMath ℚ] (calls : List (PIDCall ℚ)) (events : List (DrivesEvent ℚ)) :
    ((∀ m ∈ trace pidStep (wheelPID ℚ) calls, WithinLimits m) ↔
        ∀ m ∈ trace pidStep (wheelPID ℚ) calls, LeavesRoom m.pre m.input) ∧
      ((∀ m ∈ trace drivesStep ({} : DrivesState ℚ) events, PowersInRange m) ↔
        ∀ m ∈ trace drivesStep ({} : DrivesState ℚ) events, CallsLeaveRoom m) := by
  refine ⟨wheelPID_limited_iff calls, ?_⟩
  have hstep : ∀ (s : DrivesState ℚ) e, Configured s → True → Configured (drivesStep s e).1 :=
    fun _ e hs _ => hs.drivesStep e
  exact forall_trace_congr hstep (fun _ _ hs => execute_inRange_iff hs) ⟨.refl _, .refl _⟩
    fun _ _ => trivial

end Power

end SparxRobot.Drives
