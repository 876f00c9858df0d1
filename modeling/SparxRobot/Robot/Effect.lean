import SparxRobot.Autonomous.WellFormed
import SparxRobot.Drives.Iteration
import SparxRobot.Robot.Joint

/-! What the calls of an autonomous iteration do to the drives, case by case of the
switch. -/
namespace SparxRobot

/-- A drive or a turn is under way. -/
def Drives.DriveState.isMotion : Drives.DriveState → Bool
  | .autoDriveDistance | .autoDrivePoint | .autoTurn => true
  | _ => false

/-- The commands that start a motion. -/
def Autonomous.Call.isMotion : Autonomous.Call → Bool
  | .autoDrivePoint .. | .autoTurnToHeading .. | .autoTurnToAngle .. => true
  | .autoDriveCoordinate .. | .moveToLift .. => true
  | _ => false

/-- The calls that leave the drive state and `autoReady` alone. -/
def Autonomous.Call.isSilent : Autonomous.Call → Bool
  | .stopDrives | .abortAuto => false
  | c => !c.isMotion

namespace Autonomous

variable {r : Reading} {s : AutoState}

/-- A motion row makes one motion call, and `currCommand` is left waiting for it. -/
theorem runCase_motion (hm : s.currCommand.isMotion = true)
    (hraised : (runCase r s).raised = false) :
    ∃ c, c.isMotion = true ∧
      ((runCase r s).calls = [c] ∨ (runCase r s).calls = [.setTargetType .lift, c]) ∧
      (runCase r s).state = { s with currCommand := .drivesDone } := by
  revert hraised
  unfold runCase liftMove
  cases hc : s.currCommand <;> simp only [hc, Command.isMotion, Bool.false_eq_true] at hm ⊢
  case drivesForward =>
    split
    · next d v _ _ => exact fun _ => ⟨.autoDrivePoint d v, rfl, .inl rfl, rfl⟩
    · simp
  case drivesMove =>
    split
    · next x y v _ _ _ => exact fun _ => ⟨.autoDriveCoordinate x y v, rfl, .inl rfl, rfl⟩
    · simp
  case drivesLift =>
    split
    · next v _ => exact fun _ => ⟨.moveToLift v, rfl, .inr rfl, rfl⟩
    · simp
  case drivesTurn =>
    split
    · intro _
      refine ⟨_, ?_, .inl rfl, rfl⟩
      (repeat' split) <;> rfl
    · simp

/-- The cases that may touch the drive state. -/
def Command.engages : Command → Bool
  | .drivesStop | .drivesDone | .autoEnd => true
  | c => c.isMotion

theorem runCase_silent (h : s.currCommand.engages = false) :
    ∀ c ∈ (runCase r s).calls, c.isSilent = true := by
  unfold runCase
  cases hc : s.currCommand <;>
    simp only [hc, Command.engages, Command.isMotion, Bool.true_eq_false] at h ⊢ <;>
    (repeat' split) <;> simp [Call.isSilent, Call.isMotion]

end Autonomous

namespace Robot
open Machine Autonomous Drives

variable {R : Type*} [Field R] [LinearOrder R]

/-- The two fields `isAutoDone` reads are the same. -/
def SameStatus (d d' : DrivesState R) : Prop :=
  d'.currentDriveState = d.currentDriveState ∧ d'.autoReady = d.autoReady

theorem SameStatus.isAutoDone {d d' : DrivesState R} (h : SameStatus d d') :
    isAutoDone d' = isAutoDone d := by simp [Drives.isAutoDone, h.1, h.2]

theorem SameStatus.sound {d d' : DrivesState R} (h : SameStatus d d') (hs : Sound d) :
    Sound d' := by
  unfold Sound at hs ⊢
  rwa [h.1, h.2]

variable [JavaMath R]

/-- A motion command is accepted exactly when the drives are done, and then puts them in
motion; otherwise it leaves them alone. -/
theorem performDrives_motion (w : CallReading R) {c : Call} (hc : c.isMotion = true)
    (d : DrivesState R) :
    (performDrives w c d).2 = isAutoDone d ∧
      (isAutoDone d = false → (performDrives w c d).1 = d) ∧
      (isAutoDone d = true → (performDrives w c d).1.currentDriveState.isMotion = true ∧
        (performDrives w c d).1.autoReady = false) := by
  cases c <;> simp only [Call.isMotion, Bool.false_eq_true] at hc <;>
    simp only [performDrives, autoDrivePoint, autoTurnToHeading, autoTurnToAngle,
      autoDriveCoordinate, moveToLift] <;>
    cases isAutoDone d <;> simp [DriveState.isMotion]

theorem performDrives_silent (w : CallReading R) {c : Call} (hc : c.isSilent = true)
    (d : DrivesState R) : SameStatus d (performDrives w c d).1 := by
  cases c <;> first | exact ⟨rfl, rfl⟩ | simp [Call.isSilent, Call.isMotion] at hc

/-- The drives after a list of calls. -/
def drivesAfter (w : CallReading R) (calls : List Call) (d : DrivesState R) : DrivesState R :=
  calls.foldl (fun d c => (performDrives w c d).1) d

theorem performAll_drives (mode : Mode) (w : CallReading R) (calls : List Call)
    (s : RobotState R) : (performAll mode w calls s).drives = drivesAfter w calls s.drives := by
  induction calls generalizing s with
  | nil => rfl
  | cons c cs ih => exact ih _

theorem drivesAfter_silent (w : CallReading R) {calls : List Call}
    (h : ∀ c ∈ calls, c.isSilent = true) (d : DrivesState R) :
    SameStatus d (drivesAfter w calls d) := by
  induction calls generalizing d with
  | nil => exact ⟨rfl, rfl⟩
  | cons c cs ih =>
    have h1 := performDrives_silent w (h c List.mem_cons_self) d
    have h2 := ih (fun c hc => h c (List.mem_cons_of_mem _ hc)) (performDrives w c d).1
    exact ⟨h2.1.trans h1.1, h2.2.trans h1.2⟩

theorem performDrives_sound (w : CallReading R) (c : Call) {d : DrivesState R} (hs : Sound d) :
    Sound (performDrives w c d).1 := by
  by_cases hm : c.isMotion = true
  · obtain ⟨-, hbusy, hdone⟩ := performDrives_motion w hm d
    cases hd : isAutoDone d with
    | false => rwa [hbusy hd]
    | true =>
      obtain ⟨hstate, hready⟩ := hdone hd
      unfold Sound
      cases hc : (performDrives w c d).1.currentDriveState <;> simp_all [DriveState.isMotion]
  · by_cases hq : c.isSilent = true
    · exact (performDrives_silent w hq d).sound hs
    · cases c <;> simp [Call.isSilent, Call.isMotion] at hm hq
      · exact Sound.stopDrives
      · exact Sound.abortAuto

theorem drivesAfter_sound (w : CallReading R) (calls : List Call) {d : DrivesState R}
    (hs : Sound d) : Sound (drivesAfter w calls d) := by
  induction calls generalizing d with
  | nil => exact hs
  | cons c cs ih => exact ih (performDrives_sound w c hs)

/-- The interpreter stands on a command that looks after the drives. -/
def Attending (s : AutoState) : Prop :=
  s.incStep = false ∧
    (s.currCommand = .drivesDone ∨ s.currCommand = .drivesStop ∨ s.currCommand = .autoEnd)

/-- A case that may touch the drives leaves them done, or waits for them. -/
theorem attending_of_engages {r : Reading} {e : AutoState} (w : CallReading R)
    {d : DrivesState R} (hi : e.incStep = false) (he : e.currCommand.engages = true)
    (hraised : (runCase (answered r d) e).raised = false)
    (hb : isAutoDone (drivesAfter w (runCase (answered r d) e).calls d) = false) :
    Attending (runCase (answered r d) e).state := by
  by_cases hm : e.currCommand.isMotion = true
  · obtain ⟨c, -, -, hstate⟩ := runCase_motion hm hraised
    rw [hstate]
    exact ⟨hi, .inl rfl⟩
  · unfold runCase at hb ⊢
    cases hc : e.currCommand <;> simp only [hc, Command.engages, Command.isMotion,
      not_true_eq_false, Bool.false_eq_true] at hm he hb ⊢
    case drivesStop =>
      have hs : (stopDrives d).2 = false := (stopDrives_answer d).trans hb
      rw [answered, if_neg (by simp [hs])]
      exact ⟨hi, .inr (.inl hc)⟩
    case drivesDone =>
      have hd : isAutoDone d = false := hb
      rw [answered, if_neg (by simp [hd])]
      exact ⟨hi, .inl hc⟩
    case autoEnd => exact ⟨rfl, .inr (.inr rfl)⟩

end Robot

end SparxRobot
