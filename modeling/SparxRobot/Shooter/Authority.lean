import SparxRobot.Shooter.Iteration

/-! Who commands the shooter in autonomous mode. The shooter is run beside the station,
with flags that record what the script has authorised since the station last entered
autonomous mode, and which commands are still the ones found at that entry. -/
namespace SparxRobot.Shooter
open Machine

/-- The shooter under a station mode. The flags are not fields of the source. -/
structure Watch where
  shooter : ShooterState := {}
  mode : Mode := ⟨false, false, false⟩
  onGranted : Bool := false
  fireGranted : Bool := false
  onLeft : Bool := false
  fireLeft : Bool := false
  deriving DecidableEq, Repr

inductive WatchEvent where
  | station (mode : Mode)
  | execute (r : ShooterReading)
  | shooterSystemState (isOn speeds vision shroudPos : ℤ)
  | shooterSystemFire (fire : ℤ)
  | shooterSetTurret (turretAngle : ℤ)

/-- Entering autonomous mode revokes what was granted and marks the commands found on. -/
def enterMode (mode : Mode) (w : Watch) : Watch :=
  if mode.isAutonomous && !w.mode.isAutonomous then
    { w with
      mode := mode, onGranted := false, fireGranted := false
      onLeft := w.shooter.isPressed, fireLeft := w.shooter.fireWhenReady }
  else { w with mode := mode }

def watchStep : Step Watch WatchEvent Unit
  | w, .station mode => (enterMode mode w, ())
  | w, .execute r =>
      ({ w with shooter := (execute { r with mode := w.mode } w.shooter).1 }, ())
  | w, .shooterSystemState isOn speeds vision shroudPos =>
      ({ w with
          shooter := shooterSystemState w.mode isOn speeds vision shroudPos w.shooter
          onGranted := decide (isOn = 1), onLeft := false }, ())
  | w, .shooterSystemFire fire =>
      ({ w with
          shooter := shooterSystemFire w.mode fire w.shooter
          fireGranted := decide (fire = 1), fireLeft := false }, ())
  | w, .shooterSetTurret turretAngle =>
      ({ w with shooter := shooterSetTurret turretAngle w.shooter }, ())

abbrev WatchMoment := Moment Watch WatchEvent Unit

/-- The moment is an iteration of the shooter in autonomous mode. -/
def InAutonomous (x : WatchMoment) : Prop :=
  (∃ r, x.input = .execute r) ∧ x.pre.mode.isAutonomous = true

/-- An iteration in autonomous mode feeds and spins only as the script authorised. -/
def ActsOnCommand (x : WatchMoment) : Prop :=
  InAutonomous x →
    (x.post.shooter.feeder ≠ 0 → x.pre.fireGranted = true) ∧
      (x.post.shooter.flyWheel ≠ 0 → x.pre.onGranted = true)

/-- An iteration in autonomous mode finds neither command still on from before the mode
was entered. -/
def NothingLeft (x : WatchMoment) : Prop :=
  InAutonomous x → x.pre.onLeft = false ∧ x.pre.fireLeft = false

/-- In autonomous mode a command that is on was granted or was found on. -/
structure Accounted (w : Watch) : Prop where
  on : w.mode.isAutonomous = true → w.shooter.isPressed = true →
    w.onGranted = true ∨ w.onLeft = true
  fire : w.mode.isAutonomous = true → w.shooter.fireWhenReady = true →
    w.fireGranted = true ∨ w.fireLeft = true

section Step

variable {w : Watch}

theorem Accounted.enterMode (h : Accounted w) (mode : Mode) :
    Accounted (Shooter.enterMode mode w) := by
  unfold Shooter.enterMode
  split
  · exact ⟨fun _ hp => .inr hp, fun _ hf => .inr hf⟩
  · next hn =>
    have hstay : mode.isAutonomous = true → w.mode.isAutonomous = true := by
      intro hm
      simpa [hm] using hn
    exact ⟨fun hm hp => h.on (hstay hm) hp, fun hm hf => h.fire (hstay hm) hf⟩

/-- Every event keeps the account. -/
theorem Accounted.step (h : Accounted w) (e : WatchEvent) : Accounted (watchStep w e).1 := by
  cases e with
  | station mode => exact h.enterMode mode
  | execute r =>
    constructor
    · intro hm hp
      obtain ⟨hkeep, -⟩ := execute_autonomous_commands (r := { r with mode := w.mode })
        (s := w.shooter) hm
      exact h.on hm (hkeep ▸ hp)
    · intro hm hf
      obtain ⟨-, hkeep, -⟩ := execute_autonomous_commands (r := { r with mode := w.mode })
        (s := w.shooter) hm
      exact h.fire hm (hkeep ▸ hf)
  | shooterSystemState isOn speeds vision shroudPos =>
    constructor
    · intro _ hp
      simp only [watchStep, shooterSystemState_isPressed, Bool.and_eq_true] at hp
      exact .inl hp.1
    · intro hm hf
      simp only [watchStep, shooterSystemState_fireWhenReady] at hf
      exact h.fire hm hf
  | shooterSystemFire fire =>
    refine ⟨h.on, fun _ hf => .inl ?_⟩
    simp only [watchStep, shooterSystemFire, Bool.and_eq_true] at hf
    exact hf.1
  | shooterSetTurret angle => exact ⟨h.on, h.fire⟩

/-- An accounted iteration that finds nothing left acts on commands. -/
theorem Accounted.acts (h : Accounted w) {e : WatchEvent}
    (hn : NothingLeft (moment watchStep w e)) : ActsOnCommand (moment watchStep w e) := by
  rintro ⟨⟨r, hr⟩, hm⟩
  obtain ⟨hon, hfire⟩ := hn ⟨⟨r, hr⟩, hm⟩
  obtain rfl : e = .execute r := hr
  obtain ⟨-, -, -, -, hwheel, hfeed⟩ :=
    execute_autonomous_commands (r := { r with mode := w.mode }) (s := w.shooter) hm
  constructor
  · intro hne
    have hf : w.shooter.fireWhenReady = true := by
      by_contra hc
      exact hne (hfeed (by simpa using hc))
    rcases h.fire hm hf with hg | hl
    · exact hg
    · rw [moment_pre] at hfire
      simp [hl] at hfire
  · intro hne
    have hp : w.shooter.isPressed = true := by
      by_contra hc
      exact hne (hwheel (by simpa using hc))
    rcases h.on hm hp with hg | hl
    · exact hg
    · rw [moment_pre] at hon
      simp [hl] at hon

end Step

section Run

variable {events : List WatchEvent} {mode : Mode}

/-- Over every sequence of modes, joystick histories and calls, the iterations in autonomous
mode act only on commands authorised since the mode was entered, as long as they find no
command left on from before. -/
theorem acts_on_commands
    (hn : ∀ x ∈ trace watchStep { mode := mode } events, NothingLeft x) :
    ∀ x ∈ trace watchStep { mode := mode } events, ActsOnCommand x := by
  have h0 : Accounted { mode := mode } :=
    ⟨fun _ hp => by simp at hp, fun _ hf => by simp at hf⟩
  have hstep : ∀ w (e : WatchEvent), Accounted w → True → Accounted (watchStep w e).1 :=
    fun w e h _ => h.step e
  obtain ⟨hinv, -⟩ := invariant_of_step hstep h0 (fun _ _ => trivial)
  intro x hx
  have hleft := hn x hx
  rw [eq_moment_of_mem hx] at hleft ⊢
  exact (hinv x hx).1.acts hleft

/-- The system is switched off in operator control before autonomous mode is entered. -/
theorem switched_off_acts :
    let events : List WatchEvent := [.execute { flipSystemOn := true }, .execute {},
      .station .autoEnabled, .shooterSystemState 1 1400 1 0, .shooterSystemFire 1,
      .execute {}, .execute {}]
    (∀ x ∈ trace watchStep { mode := .teleopEnabled } events, ActsOnCommand x) ∧
      (final watchStep { mode := .teleopEnabled } events).shooter.flyWheel ≠ 0 := by
  intro events
  refine ⟨acts_on_commands fun x hx => ?_, by decide +kernel⟩
  simp only [events, trace, List.mem_cons, List.not_mem_nil, or_false] at hx
  rcases hx with rfl | rfl | rfl | rfl | rfl | rfl | rfl <;>
    exact fun _ => ⟨by decide +kernel, by decide +kernel⟩

/-- A system left on in operator control keeps the flywheel spinning in autonomous mode,
though the script never asked for it. -/
theorem left_on_spins :
    ¬ ∀ (mode : Mode) (events : List WatchEvent),
      ∀ x ∈ trace watchStep { mode := mode } events, ActsOnCommand x := by
  intro h
  have hx := h ⟨true, false, false⟩
    [.execute { flipSystemOn := true }, .station .autoEnabled, .execute {}]
    _ (List.mem_cons_of_mem _ (List.mem_cons_of_mem _ (List.mem_singleton.mpr rfl)))
  obtain ⟨-, hspin⟩ := hx ⟨⟨_, rfl⟩, by decide +kernel⟩
  exact absurd (hspin (by decide +kernel)) (by decide +kernel)

end Run

end SparxRobot.Shooter
