import SparxRobot.Java.Angle
import SparxRobot.Machine.Run
import SparxRobot.Vision.SharedData

/-! Motion compensation: what an image has shown is kept as a point of the field, and is asked
for from wherever the robot is. -/
namespace SparxRobot.Vision
open Machine Java

/-- What the camera, the drives and the others do to the shared data. -/
inductive SharedEvent (R : Type*) where
  | setTarget (type : Target) (distance angle : R) (now : ℤ)
  | clearImageData (type : Target)
  | setTargetType (type : Target)
  | setPose (x y heading : R)

def sharedStep {R : Type*} [Field R] [LinearOrder R] [JavaMath R] :
    Step (SharedData R) (SharedEvent R) Unit
  | d, .setTarget type distance angle now => (setTarget type distance angle now d, ())
  | d, .clearImageData type => (clearImageData type d, ())
  | d, .setTargetType type => ({ d with targetType := type }, ())
  | d, .setPose x y heading => ({ d with x := x, y := y, heading := heading }, ())

/-- The data are another target's, or are not valid. -/
def Foreign (type type' : Target) (angle : ℝ) : Prop := type' ≠ type ∨ 25.0 < |angle|

/-- The event brings no new data about the target. -/
def SharedEvent.Spares (type : Target) (e : SharedEvent ℝ) : Prop :=
  ∀ type' distance angle now, e = .setTarget type' distance angle now → Foreign type type' angle

/-- The answers about a target that was seen from a pose at a distance and an angle: they are
these while the robot is there, and lead to the same point from everywhere. -/
structure LeadsBack (type : Target) (x y heading distance angle : ℝ) (d : SharedData ℝ) :
    Prop where
  unmoved : d.x = x → d.y = y → d.heading = heading →
    getCorrectedTargetDistance type d = distance ∧ getCorrectedTargetAngle type d = angle
  reaches :
    d.x + getCorrectedTargetDistance type d *
        JavaMath.sin (toRadians (d.heading - getCorrectedTargetAngle type d)) =
          x + distance * JavaMath.sin (toRadians (heading - angle)) ∧
      d.y + getCorrectedTargetDistance type d *
        JavaMath.cos (toRadians (d.heading - getCorrectedTargetAngle type d)) =
          y + distance * JavaMath.cos (toRadians (heading - angle))
  in_range : |getCorrectedTargetAngle type d| ≤ 180.0
  spared : ∀ type' distance' angle' now, Foreign type type' angle' →
    getCorrectedTargetDistance type (setTarget type' distance' angle' now d) =
        getCorrectedTargetDistance type d ∧
      getCorrectedTargetAngle type (setTarget type' distance' angle' now d) =
        getCorrectedTargetAngle type d

/-- The point of the field a target was seen at. -/
def targetPoint (type : Target) (d : SharedData ℝ) : ℝ × ℝ :=
  match type with
  | .boiler => (d.targetXBoiler, d.targetYBoiler)
  | .lift => (d.targetXLift, d.targetYLift)
  | .none => (0, 0)

/-- The way to the target, along the field first and then across. -/
def offset (type : Target) (d : SharedData ℝ) : ℂ :=
  ⟨(targetPoint type d).2 - d.y, (targetPoint type d).1 - d.x⟩

section Answers

variable {type : Target} {d : SharedData ℝ}

theorem getCorrectedTargetDistance_eq (h : type ≠ .none) :
    getCorrectedTargetDistance type d = ‖offset type d‖ := by
  rw [Complex.norm_eq_sqrt_sq_add_sq, add_comm]
  cases type with
  | none => exact absurd rfl h
  | boiler | lift => rfl

theorem getCorrectedTargetAngle_eq (h : type ≠ .none) : getCorrectedTargetAngle type d =
    IEEEremainder (d.heading - toDegrees (Complex.arg (offset type d))) 360 := by
  have hturn : (360.0 : ℝ) = 360 := by norm_num
  rw [← hturn]
  cases type with
  | none => exact absurd rfl h
  | boiler | lift => rfl

theorem abs_getCorrectedTargetAngle_le (h : type ≠ .none) :
    |getCorrectedTargetAngle type d| ≤ 180.0 := by
  rw [getCorrectedTargetAngle_eq h]
  refine (abs_IEEEremainder_le (by norm_num) _).trans ?_
  norm_num

/-- The corrected angle, taken from the heading, is the direction of the target. -/
theorem direction_modEq (h : type ≠ .none) :
    toRadians (d.heading - getCorrectedTargetAngle type d) ≡ Complex.arg (offset type d)
      [PMOD 2 * Real.pi] := by
  have hangle : d.heading - getCorrectedTargetAngle type d ≡
      d.heading - (d.heading - toDegrees (Complex.arg (offset type d))) [PMOD 360] := by
    rw [getCorrectedTargetAngle_eq h]
    exact (AddCommGroup.modEq_refl _).sub (IEEEremainder_modEq _ _)
  rw [sub_sub_cancel] at hangle
  simpa only [toRadians_toDegrees] using toRadians_modEq hangle

/-- Going by the answers leads to the point. -/
theorem reaches_targetPoint (h : type ≠ .none) :
    d.x + getCorrectedTargetDistance type d *
        JavaMath.sin (toRadians (d.heading - getCorrectedTargetAngle type d)) =
          (targetPoint type d).1 ∧
      d.y + getCorrectedTargetDistance type d *
        JavaMath.cos (toRadians (d.heading - getCorrectedTargetAngle type d)) =
          (targetPoint type d).2 := by
  obtain ⟨hsin, hcos⟩ := sin_cos_congr (direction_modEq (d := d) h)
  have hx := Complex.norm_mul_sin_arg (offset type d)
  have hy := Complex.norm_mul_cos_arg (offset type d)
  rw [← getCorrectedTargetDistance_eq h, ← hsin] at hx
  rw [← getCorrectedTargetDistance_eq h, ← hcos] at hy
  exact ⟨(congrArg (d.x + ·) hx).trans (add_sub_cancel _ _),
    (congrArg (d.y + ·) hy).trans (add_sub_cancel _ _)⟩

end Answers

section Events

variable {type : Target} {d : SharedData ℝ}

/-- A valid image puts the target where it was seen. -/
theorem targetPoint_setTarget (h : type ≠ .none) (distance : ℝ) {angle : ℝ}
    (hangle : |angle| ≤ 25.0) (now : ℤ) : targetPoint type (setTarget type distance angle now d) =
      (d.x + distance * JavaMath.sin (toRadians (d.heading - angle)),
        d.y + distance * JavaMath.cos (toRadians (d.heading - angle))) := by
  obtain ⟨hlo, hhi⟩ := abs_le.mp hangle
  have hvalid : ¬ (angle < -25.0 ∨ angle > 25.0) := by
    rintro (h | h) <;> linarith
  rw [sub_eq_add_neg, mul_comm distance, mul_comm distance]
  unfold setTarget
  rw [if_neg hvalid]
  cases type with
  | none => exact absurd rfl h
  | boiler | lift => rfl

/-- Other data leave the point where it is. -/
theorem targetPoint_foreign {type' : Target} {angle : ℝ} (h : Foreign type type' angle)
    (distance : ℝ) (now : ℤ) :
    targetPoint type (setTarget type' distance angle now d) = targetPoint type d := by
  unfold setTarget
  split
  · rfl
  · next hvalid =>
    have hother : type' ≠ type := by
      rcases h with h | h
      · exact h
      · rcases lt_abs.mp h with hhi | hlo
        · exact absurd (.inr hhi) hvalid
        · exact absurd (.inl (by linarith)) hvalid
    cases type' <;> cases type <;> first | rfl | exact absurd rfl hother

theorem setTarget_pose (type : Target) (distance angle : ℝ) (now : ℤ) (d : SharedData ℝ) :
    (setTarget type distance angle now d).x = d.x ∧
      (setTarget type distance angle now d).y = d.y ∧
      (setTarget type distance angle now d).heading = d.heading := by
  unfold setTarget
  split
  · exact ⟨rfl, rfl, rfl⟩
  · cases type <;> exact ⟨rfl, rfl, rfl⟩

theorem targetPoint_step {e : SharedEvent ℝ} (h : e.Spares type) :
    targetPoint type (sharedStep d e).1 = targetPoint type d := by
  cases e with
  | setTarget type' distance angle now =>
    exact targetPoint_foreign (h type' distance angle now rfl) distance now
  | clearImageData type' => cases type' <;> cases type <;> rfl
  | setTargetType type' => cases type <;> rfl
  | setPose x y heading => cases type <;> rfl

theorem targetPoint_final {events : List (SharedEvent ℝ)} (h : ∀ e ∈ events, e.Spares type) :
    targetPoint type (final sharedStep d events) = targetPoint type d := by
  have hstep : ∀ d' e, targetPoint type d' = targetPoint type d → e.Spares type →
      targetPoint type (sharedStep d' e).1 = targetPoint type d :=
    fun _ _ hsame he => (targetPoint_step he).trans hsame
  exact (invariant_of_step hstep rfl fun m hm => h m.input (input_mem_of_mem hm)).2

/-- From one pose the answers are those of the point. -/
theorem answers_congr (h : type ≠ .none) {d' : SharedData ℝ}
    (hpoint : targetPoint type d' = targetPoint type d) (hx : d'.x = d.x) (hy : d'.y = d.y)
    (hheading : d'.heading = d.heading) :
    getCorrectedTargetDistance type d' = getCorrectedTargetDistance type d ∧
      getCorrectedTargetAngle type d' = getCorrectedTargetAngle type d := by
  have hoffset : offset type d' = offset type d := by
    rw [offset, offset, hpoint, hx, hy]
  rw [getCorrectedTargetDistance_eq h, getCorrectedTargetDistance_eq h,
    getCorrectedTargetAngle_eq h, getCorrectedTargetAngle_eq h, hoffset, hheading]
  exact ⟨rfl, rfl⟩

/-- Where a target was seen, the answers are what was seen. -/
theorem answers_unmoved (h : type ≠ .none) {distance angle : ℝ} (hdistance : 0 < distance)
    (hangle : |angle| ≤ 25.0)
    (hpoint : targetPoint type d = (d.x + distance * JavaMath.sin (toRadians (d.heading - angle)),
      d.y + distance * JavaMath.cos (toRadians (d.heading - angle)))) :
    getCorrectedTargetDistance type d = distance ∧ getCorrectedTargetAngle type d = angle := by
  have hoffset : offset type d = ⟨distance * Real.cos (toRadians (d.heading - angle)),
      distance * Real.sin (toRadians (d.heading - angle))⟩ := by
    rw [offset, hpoint]
    exact Complex.ext (add_sub_cancel_left _ _) (add_sub_cancel_left _ _)
  constructor
  · rw [getCorrectedTargetDistance_eq h, hoffset, norm_polar, abs_of_pos hdistance]
  · have hangle' : d.heading - toDegrees (Complex.arg (offset type d)) ≡ angle [PMOD 360] := by
      have harg := toDegrees_modEq (arg_polar hdistance (toRadians (d.heading - angle)))
      rw [← hoffset, toDegrees_toRadians] at harg
      have hsub := (AddCommGroup.modEq_refl d.heading).sub harg
      rwa [sub_sub_cancel] at hsub
    rw [getCorrectedTargetAngle_eq h]
    refine IEEEremainder_eq hangle'.symm (hangle.trans_lt ?_)
    norm_num

end Events

section Run

/-- Over every run after a valid image of a target, without newer data about it, its answers
lead back to where it was seen. -/
theorem leads_back {type : Target} (h : type ≠ .none) (d : SharedData ℝ) {distance angle : ℝ}
    (hdistance : 0 < distance) (hangle : |angle| ≤ 25.0) (now : ℤ)
    {events : List (SharedEvent ℝ)} (hevents : ∀ e ∈ events, e.Spares type) :
    LeadsBack type d.x d.y d.heading distance angle
      (final sharedStep (setTarget type distance angle now d) events) := by
  have hpoint := targetPoint_final (d := setTarget type distance angle now d) hevents
  rw [targetPoint_setTarget h distance hangle now] at hpoint
  generalize final sharedStep (setTarget type distance angle now d) events = d' at hpoint ⊢
  refine ⟨fun hx hy hheading => ?_, ?_, abs_getCorrectedTargetAngle_le h, ?_⟩
  · apply answers_unmoved h hdistance hangle
    rw [hpoint, hx, hy, hheading]
  · have hreaches := reaches_targetPoint (d := d') h
    rwa [hpoint] at hreaches
  · intro type' distance' angle' now' hforeign
    obtain ⟨hx, hy, hheading⟩ := setTarget_pose type' distance' angle' now' d'
    exact answers_congr h (targetPoint_foreign hforeign distance' now') hx hy hheading

/-- The boiler is seen, the robot drives on, and then it sees the lift. -/
theorem boilerThenLift_leads_back : LeadsBack .boiler 0 0 0 100 10
    (final sharedStep (setTarget .boiler 100 10 0 ({} : SharedData ℝ))
      [.setPose 30 40 90, .setTarget .lift 20 5 0]) := by
  have hangle : |(10 : ℝ)| ≤ 25.0 := by norm_num
  refine leads_back (by decide) {} (by norm_num) hangle 0 ?_
  rintro e he type' distance angle now rfl
  obtain ⟨rfl, -⟩ : type' = .lift ∧ _ := by simpa using he
  exact .inl (by decide)

end Run

end SparxRobot.Vision
