import Mathlib.Tactic.NormNum
import SparxRobot.Shooter.Iteration

/-! What becomes of a scripted shooter command. The command writes the speed and the
servo; the loop overwrites the speed when the system was off before, adds the presses of
the speed buttons it has not read yet, and drives the servo from its own shroud output. -/
namespace SparxRobot.Shooter
open Machine

/-- Autonomous mode with the operator's axes centred, no diagnostics and no further
presses of the speed buttons; no other system command. -/
def ShooterEvent.Undisturbed (increaseAt decreaseAt : ℤ) : ShooterEvent → Prop
  | execute r => r.mode.isAutonomous = true ∧ r.diagnosticsPressed = false ∧ r.shroudAxis = 0 ∧
      r.turretAxis = 0 ∧ r.increaseAt = increaseAt ∧ r.decreaseAt = decreaseAt
  | shooterSystemState .. => False
  | shooterSystemFire .. => True
  | shooterSetTurret .. => True

/-- An iteration regulates to this speed and leaves the servo at this position. -/
def Holds (speeds shroudPos : ℤ) (x : Moment ShooterState ShooterEvent (Option Target)) : Prop :=
  match x.input with
  | .execute _ => x.post.shootingSpeed = speeds ∧ x.post.shroud = shroudPos / 100
  | _ => True

/-- From this state on, every undisturbed iteration holds the command. -/
def HoldsFrom (increaseAt decreaseAt speeds shroudPos : ℤ) (s : ShooterState) : Prop :=
  ∀ events : List ShooterEvent, (∀ e ∈ events, e.Undisturbed increaseAt decreaseAt) →
    ∀ x ∈ trace shooterStep s events, Holds speeds shroudPos x

/-- A press of the button has not been read yet. -/
def increaseRises (increaseAt : ℤ) (s : ShooterState) : Bool :=
  (getButtonRising s.increaseSeen increaseAt).1

def decreaseRises (decreaseAt : ℤ) (s : ShooterState) : Bool :=
  (getButtonRising s.decreaseSeen decreaseAt).1

/-- What the unread presses add in the next iteration. -/
def unread (increaseAt decreaseAt : ℤ) (s : ShooterState) : ℚ :=
  if increaseRises increaseAt s then 25 else if decreaseRises decreaseAt s then -25 else 0

/-- The command survives: with the system already on, or at the initial speed, the unread
presses give the commanded speed and leave none for later, and the shroud output is
already where the servo was put. -/
structure Sticks (increaseAt decreaseAt speeds shroudPos : ℤ) (s : ShooterState) : Prop where
  speed : (if s.lastPressed then (speeds : ℚ) else INITIAL_SPEED) +
    unread increaseAt decreaseAt s = speeds
  later : ¬ (increaseRises increaseAt s = true ∧ decreaseRises decreaseAt s = true)
  shroud : clampShroud s.shroudOutput = shroudPos / 100

/-- The system is on by a command that turned the camera off. -/
structure Commanded (s : ShooterState) : Prop where
  on : s.isPressed = true
  blind : s.visionOff = true
  scripted : s.manualControl = false

section Step

variable {r : ShooterReading} {s : ShooterState}

theorem clampShroud_clampShroud (x : ℚ) : clampShroud (clampShroud x) = clampShroud x := by
  by_cases hhi : x > 0.5
  · have htop : clampShroud x = 0.5 := if_pos hhi
    rw [htop]
    unfold clampShroud
    norm_num
  · by_cases hlo : x < 0
    · have hbottom : clampShroud x = 0 := by rw [clampShroud, if_neg hhi, if_pos hlo]
      rw [hbottom]
      unfold clampShroud
      norm_num
    · have hin : clampShroud x = x := by rw [clampShroud, if_neg hhi, if_neg hlo]
      rw [hin, hin]

theorem adjustSpeed_speed : (adjustSpeed r s).speed =
    s.speed + unread r.increaseAt r.decreaseAt s := by
  unfold adjustSpeed unread increaseRises decreaseRises
  dsimp only
  cases (getButtonRising s.increaseSeen r.increaseAt).1 with
  | true => rfl
  | false =>
    cases (getButtonRising s.decreaseSeen r.decreaseAt).1 with
    | true => exact sub_eq_add_neg _ _
    | false => exact (add_zero _).symm

/-- After an iteration the increase button is read, and the decrease button too unless the
increase went first. -/
theorem adjustSpeed_read :
    increaseRises r.increaseAt (adjustSpeed r s) = false ∧
      decreaseRises r.decreaseAt (adjustSpeed r s) =
        (increaseRises r.increaseAt s && decreaseRises r.decreaseAt s) := by
  have hinc := congrArg Prod.fst (getButtonRising_again s.increaseSeen r.increaseAt)
  have hdec := congrArg Prod.fst (getButtonRising_again s.decreaseSeen r.decreaseAt)
  unfold adjustSpeed increaseRises decreaseRises
  dsimp only
  cases (getButtonRising s.increaseSeen r.increaseAt).1 with
  | true => exact ⟨hinc, rfl⟩
  | false =>
    simp only [Bool.false_eq_true, ↓reduceIte, Bool.false_and]
    split
    · exact ⟨hinc, hdec⟩
    · exact ⟨hinc, hdec⟩

theorem armed_speed (h : Commanded s) : (armed r s).speed =
    if s.lastPressed then s.speed else INITIAL_SPEED := by
  show (transition (aim r (sense r s))).1.speed = _
  have hlast : (aim r (sense r s)).lastPressed = s.lastPressed := by rw [aim_eq, sense_eq]
  have hpress : (aim r (sense r s)).isPressed = true := by
    rw [aim_eq, sense_eq]
    exact h.on
  have hman : (aim r (sense r s)).manualControl = false := by
    rw [aim_eq, sense_eq]
    exact h.scripted
  have hspeed : (aim r (sense r s)).speed = s.speed := by rw [aim_eq, sense_eq]
  rw [transition_speed, hlast, hpress, hman, hspeed]
  cases s.lastPressed <;> simp

/-- One undisturbed iteration of a commanded system. -/
theorem execute_commanded (h : Commanded s) {increaseAt decreaseAt : ℤ}
    (hr : (ShooterEvent.execute r).Undisturbed increaseAt decreaseAt) :
    Commanded (execute r s).1 ∧ (execute r s).1.lastPressed = true ∧
      (execute r s).1.shootingSpeed =
        (if s.lastPressed then s.speed else INITIAL_SPEED) + unread increaseAt decreaseAt s ∧
      (execute r s).1.speed = (execute r s).1.shootingSpeed ∧
      (execute r s).1.shroudOutput = clampShroud s.shroudOutput ∧
      (execute r s).1.shroud = clampShroud s.shroudOutput ∧
      increaseRises increaseAt (execute r s).1 = false ∧
      decreaseRises decreaseAt (execute r s).1 =
        (increaseRises increaseAt s && decreaseRises decreaseAt s) := by
  obtain ⟨ha, -, haxis, -, rfl, rfl⟩ := hr
  have hkept := armed_eq r s
  have hon : (armed r s).isPressed = true := by rw [hkept]; exact h.on
  have hblind : (armed r s).visionOff = true := by rw [hkept]; exact h.blind
  -- the set points come from the speed field and the clamped shroud output
  let u : ShooterState := { armed r s with shroudOutput := clampShroud s.shroudOutput }
  have hset : setPoints r (armed r s) =
      { adjustSpeed r u with shootingSpeed := (adjustSpeed r u).speed } := by
    have hout : (armed r s).shroudOutput = s.shroudOutput := by rw [hkept]
    simp [setPoints, hblind, haxis, hout, u]
  have hctrl : (speedCtrl r (armed r s)).1 = regulate (setPoints r (armed r s)) := by
    simp [speedCtrl, hon]
  have hinc : increaseRises r.increaseAt u = increaseRises r.increaseAt s := by
    show (getButtonRising (armed r s).increaseSeen r.increaseAt).1 = _
    rw [hkept]
    rfl
  have hdec : decreaseRises r.decreaseAt u = decreaseRises r.decreaseAt s := by
    show (getButtonRising (armed r s).decreaseSeen r.decreaseAt).1 = _
    rw [hkept]
    rfl
  have hspeed : (adjustSpeed r u).speed = (if s.lastPressed then s.speed else INITIAL_SPEED) +
      unread r.increaseAt r.decreaseAt s := by
    rw [adjustSpeed_speed]
    have hunread : unread r.increaseAt r.decreaseAt u = unread r.increaseAt r.decreaseAt s := by
      unfold unread
      rw [hinc, hdec]
    rw [hunread]
    exact congrArg (· + _) (armed_speed h)
  have hread := adjustSpeed_read (r := r) (s := u)
  rw [hinc, hdec] at hread
  obtain ⟨hp, -, hm, hv, -, -⟩ := execute_autonomous_commands (s := s) ha
  refine ⟨⟨hp.trans h.on, hv.trans h.blind, hm.trans h.scripted⟩, ?_⟩
  rw [execute_autonomous ha, hctrl, hset, regulate_eq]
  simp only [drive]
  refine ⟨?_, hspeed, trivial, ?_, ?_, hread.1, hread.2⟩
  · rw [adjustSpeed_eq]
    show (armed r s).lastPressed = true
    rw [hkept]
    exact h.on
  · rw [adjustSpeed_eq]
  · rw [adjustSpeed_eq]

end Step

section Run

variable {s : ShooterState} {increaseAt decreaseAt speeds shroudPos : ℤ}

/-- A commanded system whose command sticks. -/
structure Settled (increaseAt decreaseAt speeds shroudPos : ℤ) (s : ShooterState) : Prop where
  commanded : Commanded s
  speed : s.speed = speeds
  sticks : Sticks increaseAt decreaseAt speeds shroudPos s

/-- An iteration of a settled system holds the command and keeps the system settled. -/
theorem Settled.execute {r : ShooterReading}
    (h : Settled increaseAt decreaseAt speeds shroudPos s)
    (hr : (ShooterEvent.execute r).Undisturbed increaseAt decreaseAt) :
    Settled increaseAt decreaseAt speeds shroudPos (execute r s).1 ∧
      (execute r s).1.shootingSpeed = speeds ∧ (execute r s).1.shroud = shroudPos / 100 := by
  obtain ⟨hcmd, hlast, hshoot, hspeed, hout, hshroud, hinc, hdec⟩ :=
    execute_commanded h.commanded hr
  rw [h.speed, h.sticks.speed] at hshoot
  have hnone : decreaseRises decreaseAt (Shooter.execute r s).1 = false := by
    rw [hdec, ← Bool.not_eq_true, Bool.and_eq_true]
    exact h.sticks.later
  refine ⟨⟨hcmd, hspeed.trans hshoot, ?_, ?_, ?_⟩, hshoot, hshroud.trans h.sticks.shroud⟩
  · rw [hlast, unread, hinc, hnone]
    exact add_zero _
  · rw [hinc]
    simp
  · rw [hout, clampShroud_clampShroud]
    exact h.sticks.shroud

/-- Nothing undisturbed unsettles a settled system. -/
theorem Settled.step {e : ShooterEvent} (h : Settled increaseAt decreaseAt speeds shroudPos s)
    (he : e.Undisturbed increaseAt decreaseAt) :
    Settled increaseAt decreaseAt speeds shroudPos (shooterStep s e).1 := by
  cases e with
  | execute r => exact (h.execute he).1
  | shooterSystemState => exact absurd he id
  | shooterSystemFire mode fire =>
    exact ⟨⟨h.commanded.on, h.commanded.blind, h.commanded.scripted⟩, h.speed,
      ⟨h.sticks.speed, h.sticks.later, h.sticks.shroud⟩⟩
  | shooterSetTurret angle =>
    exact ⟨⟨h.commanded.on, h.commanded.blind, h.commanded.scripted⟩, h.speed,
      ⟨h.sticks.speed, h.sticks.later, h.sticks.shroud⟩⟩

theorem Settled.holdsFrom (h : Settled increaseAt decreaseAt speeds shroudPos s) :
    HoldsFrom increaseAt decreaseAt speeds shroudPos s := by
  intro events he x hx
  have hstep : ∀ s (e : ShooterEvent), Settled increaseAt decreaseAt speeds shroudPos s →
      e.Undisturbed increaseAt decreaseAt →
      Settled increaseAt decreaseAt speeds shroudPos (shooterStep s e).1 :=
    fun s e hs he => hs.step he
  obtain ⟨hinv, -⟩ := invariant_of_step hstep h (fun m hm => he _ (input_mem_of_mem hm))
  have hset := (hinv x hx).1
  have hin := he _ (input_mem_of_mem hx)
  unfold Holds
  split
  · next r hr =>
    rw [hr] at hin
    rw [eq_moment_of_mem hx, hr]
    exact (hset.execute hin).2
  · trivial

/-- An undisturbed reading. -/
def quietReading (increaseAt decreaseAt : ℤ) : ShooterReading :=
  { increaseAt := increaseAt, decreaseAt := decreaseAt }

/-- Two iterations are enough to see whether a command sticks. -/
theorem sticks_of_holdsFrom (hc : Commanded s) (hs : s.speed = speeds)
    (h : HoldsFrom increaseAt decreaseAt speeds shroudPos s) :
    Sticks increaseAt decreaseAt speeds shroudPos s := by
  let q := quietReading increaseAt decreaseAt
  have hq : (ShooterEvent.execute q).Undisturbed increaseAt decreaseAt :=
    ⟨rfl, rfl, rfl, rfl, rfl, rfl⟩
  have hall := h [.execute q, .execute q] (fun e he => by
    rcases List.mem_pair.mp he with rfl | rfl <;> exact hq)
  obtain ⟨hspeed, hshroud⟩ : (execute q s).1.shootingSpeed = speeds ∧
      (execute q s).1.shroud = shroudPos / 100 :=
    hall (moment shooterStep s (.execute q)) (by simp [trace])
  obtain ⟨hspeed₂, -⟩ : (execute q (execute q s).1).1.shootingSpeed = speeds ∧
      (execute q (execute q s).1).1.shroud = shroudPos / 100 :=
    hall (moment shooterStep (execute q s).1 (.execute q)) (by simp [trace, shooterStep])
  obtain ⟨hcmd, hlast, hshoot, hnext, -, hout, hinc, hdec⟩ := execute_commanded hc hq
  obtain ⟨-, -, hshoot₂, -⟩ := execute_commanded hcmd hq
  rw [hspeed, hs] at hshoot
  refine ⟨hshoot.symm, ?_, hout.symm.trans hshroud⟩
  rintro ⟨hi, hd⟩
  rw [hi, hd] at hdec
  rw [hspeed₂, hlast, hnext, hspeed, unread, hinc, hdec] at hshoot₂
  norm_num at hshoot₂

/-- The call puts the system on and leaves what decides whether it sticks. -/
theorem commanded_call (increaseAt decreaseAt speeds shroudPos : ℤ)
    (hm : s.manualControl = false) {mode : Mode} (ha : mode.isAutonomous = true) :
    Commanded (shooterSystemState mode 1 speeds 1 shroudPos s) ∧
      (shooterSystemState mode 1 speeds 1 shroudPos s).speed = speeds ∧
      (Sticks increaseAt decreaseAt speeds shroudPos
        (shooterSystemState mode 1 speeds 1 shroudPos s) ↔
        Sticks increaseAt decreaseAt speeds shroudPos s) := by
  have hcall : shooterSystemState mode 1 speeds 1 shroudPos s =
      { s with
        speed := speeds, shroud := shroudPos / 100, isPressed := true, visionOff := true } := by
    simp [shooterSystemState, ha]
  rw [hcall]
  exact ⟨⟨rfl, rfl, hm⟩, rfl, fun h => ⟨h.speed, h.later, h.shroud⟩,
    fun h => ⟨h.speed, h.later, h.shroud⟩⟩

/-- A system command of the script holds in every later undisturbed iteration exactly when
the system was already on, or the speed is the initial one, give or take the presses not
yet read, and the shroud output already stood where the command puts the servo. -/
theorem command_holds_iff (hm : s.manualControl = false) {mode : Mode}
    (ha : mode.isAutonomous = true) :
    HoldsFrom increaseAt decreaseAt speeds shroudPos
        (shooterSystemState mode 1 speeds 1 shroudPos s) ↔
      Sticks increaseAt decreaseAt speeds shroudPos s := by
  obtain ⟨hcmd, hspeed, hiff⟩ := commanded_call increaseAt decreaseAt speeds shroudPos hm ha
  rw [← hiff]
  exact ⟨sticks_of_holdsFrom hcmd hspeed, fun h => Settled.holdsFrom ⟨hcmd, hspeed, h⟩⟩

/-- With the system already on, the next command holds. -/
theorem second_command_holds :
    HoldsFrom 0 0 1425 0 (shooterSystemState .autoEnabled 1 1425 1 0
      (final shooterStep {} [.shooterSystemState .autoEnabled 1 1400 1 0, .execute {}])) :=
  (command_holds_iff (by decide +kernel) (by decide)).mpr
    ⟨by decide +kernel, by decide +kernel, by decide +kernel⟩

/-- The command of a shipped script, given to a system that is off, is regulated to the
initial speed. -/
theorem first_command_overwritten :
    ¬ ∀ (s : ShooterState) (mode : Mode) (increaseAt decreaseAt speeds shroudPos : ℤ),
      Reachable s → s.manualControl = false → mode.isAutonomous = true → 0 ≤ shroudPos →
      shroudPos ≤ 50 →
      HoldsFrom increaseAt decreaseAt speeds shroudPos
        (shooterSystemState mode 1 speeds 1 shroudPos s) := by
  intro h
  have hall := h {} .autoEnabled 0 0 1425 0 ⟨[], rfl⟩ rfl rfl (by decide) (by decide)
    [.execute {}] (fun e he => by
      rw [List.mem_singleton.mp he]
      exact ⟨rfl, rfl, rfl, rfl, rfl, rfl⟩)
  obtain ⟨hspeed, -⟩ := hall _ (List.mem_singleton.mpr rfl)
  exact absurd hspeed (by decide +kernel)

end Run

end SparxRobot.Shooter
