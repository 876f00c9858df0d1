import SparxRobot.Vision.SharedData

/-! What the robot does with the camera's arrays: it refers them to its own reference point
and shares them. -/
namespace SparxRobot.Vision

/-- The fields of `VisionNetworkTable` that are not constant, and the shared data. -/
structure TableState (R : Type*) [Field R] where
  liftAngle : R := -180.0
  liftDistance : R := -1.0
  boilerAngle : R := -180.0
  boilerDistance : R := -1.0
  shared : SharedData R := {}

def clientLift : String := "peg"
def clientHighGoal : String := "highGoal"

section Constants

variable (R : Type*) [Field R]

def xOffsetBoiler : R := 13.75
def yOffsetBoiler : R := 13.5
def xOffsetPeg : R := 13.75
def yOffsetPeg : R := 12.5

end Constants

variable {R : Type*} [Field R] [LinearOrder R] [JavaMath R]

/-- The distance and angle of a target from the robot's reference point. -/
def applyOffset (xOffset yOffset inputAngle inputDistance : R) : R × R :=
  let dy := inputDistance
  let dx := dy * Java.tan (Java.toRadians inputAngle)
  let dx := dx + xOffset
  let dy := dy + yOffset
  (dy, Java.toDegrees (Java.atanOfQuotient dx dy))

/-- `val` is what is under the key, if that is an array of doubles: another value cannot be
cast, which throws as a missing element does, and what is thrown is caught. -/
def valueChanged (key : String) (val : Option (List R)) (now : ℤ) (s : TableState R) :
    TableState R :=
  match val with
  | some (inputAngle :: inputDistance :: _) =>
      if key = clientLift then
        if inputAngle ≠ -180.0 ∧ inputDistance ≠ -1.0 then
          let target := applyOffset (xOffsetPeg R) (yOffsetPeg R) inputAngle inputDistance
          { s with
            liftDistance := target.1
            liftAngle := target.2
            shared := setTarget .lift target.1 target.2 now s.shared }
        else s
      else if key = clientHighGoal then
        if inputAngle ≠ -180.0 ∧ inputDistance ≠ -1.0 then
          let target := applyOffset (xOffsetBoiler R) (yOffsetBoiler R) inputAngle inputDistance
          { s with
            boilerDistance := target.1
            boilerAngle := target.2
            shared := setTarget .boiler target.1 target.2 now s.shared }
        else s
      else s
  | _ => s

/-- A target of the lift is shared exactly when its angle is in the window. -/
theorem setTarget_lift_updates_iff (distance angle : R) :
    (∀ (now : ℤ) (d : SharedData R),
      (setTarget .lift distance angle now d).angleToLift = -angle ∧
        (setTarget .lift distance angle now d).distanceToLift = distance ∧
        (setTarget .lift distance angle now d).liftImageTime = now) ↔
      -25.0 ≤ angle ∧ angle ≤ 25.0 := by
  by_cases hwindow : angle < -25.0 ∨ angle > 25.0
  · have hout : ¬(-25.0 ≤ angle ∧ angle ≤ 25.0) := by
      rintro ⟨hlower, hupper⟩
      rcases hwindow with hlow | hhigh
      · exact absurd hlow (not_lt.mpr hlower)
      · exact absurd hhigh (not_lt.mpr hupper)
    refine iff_of_false (fun hall => ?_) hout
    obtain ⟨-, -, htime⟩ := hall 1 {}
    simp [setTarget, hwindow] at htime
  · refine iff_of_true (fun now d => ?_) ?_
    · unfold setTarget
      rw [if_neg hwindow]
      exact ⟨rfl, rfl, rfl⟩
    · rw [not_or, not_lt, gt_iff_lt, not_lt] at hwindow
      exact hwindow

end SparxRobot.Vision
