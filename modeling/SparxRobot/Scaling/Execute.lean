import Mathlib.Algebra.Field.Rat
import Mathlib.Algebra.Order.Ring.Unbundled.Rat
import Mathlib.Data.Rat.Cast.Order
import Mathlib.Tactic.NormNum
import SparxRobot.Machine.Run

/-! The winch that climbs the rope. The operator's axis writes the state at the start of
every iteration, so the state that looks at the limit switch is never the one executed. -/
namespace SparxRobot.Scaling
open Machine

inductive State where
  | standby | attatching | scaling
  deriving DecidableEq, Repr

variable {R : Type*} [Field R] [LinearOrder R]

def MOTOR_STOP (R : Type*) [Field R] : R := 0

/-- The fields of `Scaling` after `init`, and what the motor was last set to. -/
structure ScalingState (R : Type*) [Field R] where
  currentScalingStatus : State := .standby
  isStarted : Bool := false
  ScalingMotor : R := 0

/-- What one iteration reads; the axis is read for the state, and again for the motor. -/
structure ScalingReading (R : Type*) where
  controlAxis : R
  motorAxis : R := controlAxis
  limitSwitch : Bool := false

def readControls (r : ScalingReading R) (s : ScalingState R) : ScalingState R :=
  { s with currentScalingStatus := if r.controlAxis < 0.25 then .standby else .attatching }

/-- The output is the message the iteration logs. -/
def execute : Step (ScalingState R) (ScalingReading R) (Option String) := fun s r =>
  let s := readControls r s
  match s.currentScalingStatus with
  | .standby => ({ s with ScalingMotor := MOTOR_STOP R, isStarted := false }, none)
  | .attatching =>
      ({ s with
          ScalingMotor := r.motorAxis
          currentScalingStatus := .scaling
          isStarted := true }, none)
  | .scaling =>
      let s := { s with ScalingMotor := r.motorAxis, isStarted := true }
      if r.limitSwitch then
        ({ s with currentScalingStatus := .standby }, some "Rope Has Been Climbed")
      else (s, none)

abbrev ScalingMoment (R : Type*) [Field R] :=
  Moment (ScalingState R) (ScalingReading R) (Option String)

/-- The iteration drove the winch. -/
def Drove (m : ScalingMoment R) : Prop := m.post.ScalingMotor ≠ 0

/-- Once the limit switch has tripped during a climb, what follows while it stays tripped
is a list of iterations of which `P` holds. -/
def AfterTrip (P : ScalingMoment R → Prop) (T : List (ScalingMoment R)) : Prop :=
  ∀ h p m during t, T = h ++ p :: m :: (during ++ t) → Drove p →
    m.input.limitSwitch = true → (∀ x ∈ during, x.input.limitSwitch = true) → ∀ x ∈ during, P x

/-- The limit switch keeps the winch still. -/
def LimitHonoured (T : List (ScalingMoment R)) : Prop :=
  AfterTrip (fun x => x.post.ScalingMotor = 0) T

/-- The operator lets the axis go, or it reads zero when it is read for the motor. -/
def LetsGo (r : ScalingReading R) : Prop := r.controlAxis < 0.25 ∨ r.motorAxis = 0

section Iteration

variable (s : ScalingState R) (r : ScalingReading R)

/-- An iteration does what the axis says, whatever went before and whatever the limit
switch reads. -/
theorem execute_eq : execute s r =
    if r.controlAxis < 0.25 then (⟨.standby, false, 0⟩, none)
    else (⟨.scaling, true, r.motorAxis⟩, none) := by
  by_cases haxis : r.controlAxis < 0.25 <;> simp [execute, readControls, haxis, MOTOR_STOP]

theorem execute_stops_iff : (execute s r).1.ScalingMotor = 0 ↔ LetsGo r := by
  rw [execute_eq]
  unfold LetsGo
  split
  · next haxis => simp [haxis]
  · next haxis => simp [haxis]

end Iteration

section Run

omit [LinearOrder R] in
theorem AfterTrip.congr {P Q : ScalingMoment R → Prop} {T : List (ScalingMoment R)}
    (h : ∀ m ∈ T, P m ↔ Q m) : AfterTrip P T ↔ AfterTrip Q T := by
  unfold AfterTrip
  refine forall₅_congr fun before p m during t => forall_congr' fun ht => ?_
  refine forall₃_congr fun _ _ _ => forall₂_congr fun x hx => h x ?_
  simp [ht, hx]

/-- Over every run, the limit switch is honoured exactly when the operator lets go after
each trip for as long as it lasts. -/
theorem limit_honoured_iff (readings : List (ScalingReading R)) :
    LimitHonoured (trace execute {} readings) ↔
      AfterTrip (fun x => LetsGo x.input) (trace execute {} readings) := by
  apply AfterTrip.congr
  intro m hm
  rw [eq_moment_of_mem hm]
  exact execute_stops_iff m.pre m.input

/-- The stick held where the winch pulls. -/
def held (limitSwitch : Bool) : ScalingReading ℚ :=
  { controlAxis := 0.5, limitSwitch := limitSwitch }

/-- The winch goes on pulling with the switch tripped. -/
theorem held_drives :
    ¬ ∀ readings : List (ScalingReading ℚ), LimitHonoured (trace execute {} readings) := by
  intro hall
  have hholds : ∀ tripped, ¬ LetsGo (held tripped) := by
    intro tripped
    unfold LetsGo held
    norm_num
  have hdrives : ∀ s tripped, (execute s (held tripped)).1.ScalingMotor ≠ 0 :=
    fun s tripped => mt (execute_stops_iff s _).mp (hholds tripped)
  have hstill := hall [held false, held true, held true] [] _ _ [_] [] rfl
    (hdrives {} false) rfl (by simp [held]) _ List.mem_cons_self
  exact hdrives _ true hstill

end Run

end SparxRobot.Scaling
