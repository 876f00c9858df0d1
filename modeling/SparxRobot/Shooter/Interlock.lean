import SparxRobot.Shooter.Iteration
import Mathlib.Tactic.Linarith
import Mathlib.Tactic.Positivity

/-! What lets the feeder run, and where the turret may go: every path through an iteration,
from the joysticks, the script or the camera, comes to the same two tests and the same limit
switches. -/
namespace SparxRobot.Shooter

section Parts

variable (r : ShooterReading) (s : ShooterState)

end Parts

section Iteration

variable (r : ShooterReading) (s : ShooterState)

/-- The state an iteration brings to the speed control, and whether the turret is ready. -/
def aimed : ShooterState × Bool := turretCtrl r (transition (aim r (readCommand r (sense r s)))).1

theorem execute_eq : (execute r s).1 = drive (fireOverrides r)
    { (speedCtrl r (aimed r s).1).1 with
      ready := (aimed r s).2 && (speedCtrl r (aimed r s).1).2 } := rfl

/-- The system is on and everything is ready: the feeder runs. -/
example : (execute { speedCurrent := 1400 }
    { isPressed := true, lastPressed := true, fireWhenReady := true, visionOff := true }).1.feeder
      = 1 := by
  decide +kernel

end Iteration

end SparxRobot.Shooter
