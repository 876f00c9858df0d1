import SparxRobot.Shooter.Iteration
import SparxRobot.Drives.Iteration
import SparxRobot.Robot.Joint

/-! What `AUTOEND` brings to rest. `abortCommands` reaches the drives and the shooter; the
ball acquisition is not told, and goes on with what the script started. -/
namespace SparxRobot.Robot
open Machine Autonomous Shooter

variable {R : Type*} [Field R] [LinearOrder R]

/-- An iteration of a subsystem other than autonomous, in enabled autonomous mode. -/
def RobotEvent.Follows : RobotEvent R → Prop
  | .drives r => r.mode.isEnabled = true ∧ r.mode.isAutonomous = true
  | .shooter r => r.mode.isEnabled = true ∧ r.mode.isAutonomous = true
  | .ballacq r => r.mode.isEnabled = true ∧ r.mode.isAutonomous = true
  | .autonomous .. | .setRunAuto .. => False

omit [LinearOrder R] in
theorem RobotEvent.Follows.cases {e : RobotEvent R} (h : e.Follows) :
    (∃ r, e = .drives r ∧ r.mode.isEnabled = true ∧ r.mode.isAutonomous = true) ∨
      (∃ r, e = .shooter r ∧ r.mode.isAutonomous = true) ∨
        ∃ r, e = .ballacq r ∧ r.mode.isEnabled = true ∧ r.mode.isAutonomous = true := by
  cases e with
  | drives r => exact .inl ⟨r, rfl, h⟩
  | shooter r => exact .inr (.inl ⟨r, rfl, h.2⟩)
  | ballacq r => exact .inr (.inr ⟨r, rfl, h⟩)
  | autonomous r w => exact h.elim
  | setRunAuto auto mode w => exact h.elim

def RobotEvent.IsDrives : RobotEvent R → Prop
  | .drives _ => True
  | _ => False

def RobotEvent.IsShooter : RobotEvent R → Prop
  | .shooter _ => True
  | _ => False

def RobotEvent.IsBallAcq : RobotEvent R → Prop
  | .ballacq _ => True
  | _ => False

/-- Wheels, flywheel, feeder, acquisition motors and horizontal belt are commanded to
stand. -/
def Quiet (s : RobotState R) : Prop :=
  (s.drives.rightWantedSpeed = 0 ∧ s.drives.leftWantedSpeed = 0) ∧
    (s.shooter.flyWheel = 0 ∧ s.shooter.feeder = 0) ∧ BallAcq.Still s.ballacq

section Result

variable [FloorRing R] [JavaMath R]

/-- After the iteration, each of the other subsystems having iterated at least once in any
order, everything is quiet. -/
def Quiesces (s : RobotState R) (r : Reading) (w : CallReading R) : Prop :=
  ∀ events : List (RobotEvent R), (∀ e ∈ events, e.Follows) →
    (∃ e ∈ events, e.IsDrives) → (∃ e ∈ events, e.IsShooter) → (∃ e ∈ events, e.IsBallAcq) →
      Quiet (final robotStep (robotStep s (.autonomous r w)).1 events)

private theorem enter_autoEnd {r : Reading} {fired : Bool} {row : Option ℤ} {s : AutoState}
    (h : (enter r fired row s).2.executed = some .autoEnd) :
    (enter r fired row s).2.calls = abortCommands ++ [.setTargetType .none] := by
  unfold enter at h ⊢
  split at h
  · simp at h
  · next e he =>
    have hc : e.currCommand = .autoEnd := by simpa using h
    simp only [runCase, hc]

/-- The calls of an iteration that executes `AUTOEND`, from any state. -/
theorem calls_of_autoEnd {r : Reading} {s : AutoState}
    (h : (Autonomous.execute r s).2.executed = some .autoEnd) :
    (Autonomous.execute r s).2.calls = abortCommands ++ [.setTargetType .none] := by
  have hr : Autonomous.Runs r s := runs_of_shown (fun heq => by simp [heq] at h)
  rw [execute_of_runs hr, runAuto_eq hr.1 hr.2.1] at h ⊢
  split at h
  · next hf =>
    rw [if_pos hf]
    split at h
    · simp at h
    · exact enter_autoEnd h
  · next hf =>
    rw [if_neg hf]
    exact enter_autoEnd h

/-- What the calls of `AUTOEND` leave: the drives aborted, the shooter switched off, the
ball acquisition as it was. -/
theorem robotStep_autoEnd {s : RobotState R} {r : Reading} {w : CallReading R}
    (h : (robotStep s (.autonomous r w)).2.executed = some .autoEnd) :
    (robotStep s (.autonomous r w)).1.drives.currentDriveState = .autoAbort ∧
      Off (robotStep s (.autonomous r w)).1.shooter ∧
      (robotStep s (.autonomous r w)).1.ballacq = s.ballacq := by
  have hend : (Autonomous.execute (answered r s.drives) s.auto).2.executed = some .autoEnd := h
  rw [robotStep, calls_of_autoEnd hend]
  refine ⟨rfl, ⟨?_, ?_⟩, rfl⟩
  · simp [abortCommands, perform, performShooter]
  · simp [abortCommands, perform, performShooter, Shooter.shooterSystemFire]

section Settle

variable {s : RobotState R} {events : List (RobotEvent R)}

private theorem drives_settle (h0 : Drives.Halting s.drives) (hok : ∀ e ∈ events, e.Follows)
    (hex : ∃ e ∈ events, e.IsDrives) : Drives.Halted (final robotStep s events).drives := by
  apply final_of_settles (f := RobotState.drives) (P := Drives.Halting) _ _ _ h0 hok hex
  · intro s e hs he hown
    rcases he.cases with ⟨r, rfl, he, ha⟩ | ⟨r, rfl, -⟩ | ⟨r, rfl, -⟩
    · exact Drives.execute_halts he ha hs
    · exact hown.elim
    · exact hown.elim
  · intro s e he hown
    rcases he.cases with ⟨r, rfl, -⟩ | ⟨r, rfl, -⟩ | ⟨r, rfl, -⟩
    · exact absurd trivial hown
    · rfl
    · rfl
  · exact fun _ => .inr

private theorem shooter_settle (h0 : Off s.shooter) (hok : ∀ e ∈ events, e.Follows)
    (hex : ∃ e ∈ events, e.IsShooter) : AtRest (final robotStep s events).shooter := by
  apply final_of_settles (f := RobotState.shooter) (P := Off) _ _ _ h0 hok hex
  · intro s e hs he hown
    rcases he.cases with ⟨r, rfl, -⟩ | ⟨r, rfl, ha⟩ | ⟨r, rfl, -⟩
    · exact hown.elim
    · exact execute_off ha hs
    · exact hown.elim
  · intro s e he hown
    rcases he.cases with ⟨r, rfl, -⟩ | ⟨r, rfl, -⟩ | ⟨r, rfl, -⟩
    · rfl
    · exact absurd trivial hown
    · rfl
  · exact fun _ hs => hs.1

private theorem ballacq_settle (h0 : BallAcq.Idle s.ballacq) (hok : ∀ e ∈ events, e.Follows)
    (hex : ∃ e ∈ events, e.IsBallAcq) : BallAcq.Still (final robotStep s events).ballacq := by
  suffices h : BallAcq.Idle (final robotStep s events).ballacq ∧
      BallAcq.Still (final robotStep s events).ballacq from h.2
  apply final_of_settles (f := RobotState.ballacq) (P := BallAcq.Idle)
    (Q := fun b => BallAcq.Idle b ∧ BallAcq.Still b) _ _ _ h0 hok hex
  · intro s e hs he hown
    rcases he.cases with ⟨r, rfl, -⟩ | ⟨r, rfl, -⟩ | ⟨r, rfl, he, ha⟩
    · exact hown.elim
    · exact hown.elim
    · exact BallAcq.execute_idle he ha hs
  · intro s e he hown
    rcases he.cases with ⟨r, rfl, -⟩ | ⟨r, rfl, -⟩ | ⟨r, rfl, -⟩
    · rfl
    · rfl
    · exact absurd trivial hown
  · exact fun _ hs => hs.1

end Settle

/-- One iteration of the drives and the shooter and then `n` of the ball acquisition. -/
private def round (n : ℕ) : List (RobotEvent R) :=
  .drives {} :: .shooter {} :: List.replicate n (.ballacq {})

omit [LinearOrder R] [FloorRing R] [JavaMath R] in
private theorem round_follows (n : ℕ) : ∀ e ∈ round (R := R) n, e.Follows := by
  intro e he
  simp only [round, List.mem_cons, List.mem_replicate] at he
  rcases he with rfl | rfl | ⟨-, rfl⟩ <;> exact ⟨rfl, rfl⟩

private theorem Quiesces.round {s : RobotState R} {r : Reading} {w : CallReading R}
    (hq : Quiesces s r w) (n : ℕ) :
    Quiet (final robotStep (robotStep s (.autonomous r w)).1 (round (n + 1))) := by
  refine hq _ (round_follows _) ⟨.drives {}, ?_, trivial⟩ ⟨.shooter {}, ?_, trivial⟩
    ⟨.ballacq {}, ?_, trivial⟩ <;> simp [Robot.round]

/-- `AUTOEND` brings everything to rest exactly when the ball acquisition was idle. -/
theorem autoEnd_quiesces_iff (s : RobotState R) (r : Reading) (w : CallReading R)
    (hend : (robotStep s (.autonomous r w)).2.executed = some .autoEnd) :
    Quiesces s r w ↔ BallAcq.Idle s.ballacq := by
  obtain ⟨hdrives, hoff, hacq⟩ := robotStep_autoEnd hend
  constructor
  · intro hq
    have hone : BallAcq.Still (BallAcq.execute {} s.ballacq) := by
      rw [← hacq]
      exact (hq.round 0).2.2
    have htwo : BallAcq.Still (BallAcq.execute {} (BallAcq.execute {} s.ballacq)) := by
      rw [← hacq]
      exact (hq.round 1).2.2
    constructor
    · by_contra hacts
      exact BallAcq.execute_acq_runs rfl rfl hacts hone.1
    · by_contra hbelt
      rcases BallAcq.execute_belt_runs (r := {}) rfl rfl hbelt with h | h
      · exact h hone.2.2
      · exact h htwo.2.2
  · intro hidle events hok hd hs hb
    exact ⟨(drives_settle (.inl hdrives) hok hd).2, (shooter_settle hoff hok hs).2,
      ballacq_settle (by rw [hacq]; exact hidle) hok hb⟩

end Result

/-- A script that starts the acquisition motors, and one that stops them before it ends. -/
def ACQUIRE : Script := [[0], [7, 1, 2], [99]]

def ACQUIRE_AND_STOP : Script := [[0], [7, 1, 2], [7, 1, 1], [99]]

theorem acquireAndStop_quiesces :
    Quiesces (final robotStep {} (scriptRun ℝ ACQUIRE_AND_STOP [20, 40])) (readsAt 60 false) {} :=
  (autoEnd_quiesces_iff _ _ _ (by decide +kernel)).mpr (by decide +kernel)

/-- `AUTOEND` has been executed and every subsystem has iterated, and the acquisition
motors still run. -/
theorem acquire_keeps_running :
    (robotStep (final robotStep {} (scriptRun ℝ ACQUIRE [20]))
        (.autonomous (readsAt 40 false) {})).2.executed = some .autoEnd ∧
      ¬ Quiesces (final robotStep {} (scriptRun ℝ ACQUIRE [20])) (readsAt 40 false) {} := by
  refine ⟨by decide +kernel, fun hq => ?_⟩
  obtain ⟨-, -, hleft, -⟩ := hq.round 0
  revert hleft
  decide +kernel

end SparxRobot.Robot
