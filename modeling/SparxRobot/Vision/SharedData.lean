import SparxRobot.Java.Math
import SparxRobot.Station.Mode

/-! The data the camera shares with the other subsystems. -/
namespace SparxRobot.Vision

/-- The static fields of `SharedData` that the camera's code reads and writes. -/
structure SharedData (R : Type*) [Field R] where
  x : R := 0
  y : R := 0
  heading : R := 0
  targetType : Target := .none
  distanceToBoiler : R := 0
  distanceToLift : R := 0
  angleToBoiler : R := 0
  angleToLift : R := 0
  targetXBoiler : R := 0
  targetYBoiler : R := 0
  targetXLift : R := 0
  targetYLift : R := 0
  liftImageTime : ℤ := 0
  boilerImageTime : ℤ := 0

def INVALIDTARGETTYPE (R : Type*) [Field R] : R := 99999.0

variable {R : Type*} [Field R] [LinearOrder R]

/-- Angles out of the window are invalid data, and are dropped. -/
def setTarget [JavaMath R] (type : Target) (distance angle : R) (now : ℤ) (d : SharedData R) :
    SharedData R :=
  if angle < -25.0 ∨ angle > 25.0 then d
  else
    match type with
    | .boiler =>
        let bearing := Java.toRadians (d.heading + -angle)
        { d with
          distanceToBoiler := distance
          angleToBoiler := -angle
          targetXBoiler := d.x + JavaMath.sin bearing * distance
          targetYBoiler := d.y + JavaMath.cos bearing * distance
          boilerImageTime := now }
    | .lift =>
        let bearing := Java.toRadians (d.heading + -angle)
        { d with
          angleToLift := -angle
          liftImageTime := now
          distanceToLift := distance
          targetXLift := d.x + JavaMath.sin bearing * distance
          targetYLift := d.y + JavaMath.cos bearing * distance }
    | .none => d

/-- The angle to a target from where the robot is now. -/
def getCorrectedTargetAngle [FloorRing R] [JavaMath R] (type : Target) (d : SharedData R) : R :=
  match type with
  | .boiler =>
      Java.IEEEremainder (d.heading - Java.toDegrees
        (JavaMath.atan2 (d.targetXBoiler - d.x) (d.targetYBoiler - d.y))) 360.0
  | .lift =>
      Java.IEEEremainder (d.heading - Java.toDegrees
        (JavaMath.atan2 (d.targetXLift - d.x) (d.targetYLift - d.y))) 360.0
  | .none => INVALIDTARGETTYPE R

/-- The distance to a target from where the robot is now. -/
def getCorrectedTargetDistance [JavaMath R] (type : Target) (d : SharedData R) : R :=
  match type with
  | .boiler => JavaMath.sqrt ((d.targetXBoiler - d.x) ^ 2 + (d.targetYBoiler - d.y) ^ 2)
  | .lift => JavaMath.sqrt ((d.targetXLift - d.x) ^ 2 + (d.targetYLift - d.y) ^ 2)
  | .none => INVALIDTARGETTYPE R

def clearImageData (type : Target) (d : SharedData R) : SharedData R :=
  match type with
  | .boiler => { d with boilerImageTime := 0 }
  | .lift => { d with liftImageTime := 0 }
  | .none => d

end SparxRobot.Vision
