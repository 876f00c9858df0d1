import SparxRobot.Drives.Exclusion

/-! Holding a place. A hold asks for its corrections through the commands it has just shut
out, so a robot that is pushed stays pushed. -/
namespace SparxRobot.Drives
open Machine

variable {R : Type*} [Field R] [LinearOrder R] [FloorRing R] [JavaMath R]

/-- What the iteration of the hold senses has moved along y since the hold started. -/
def MovedInY (start : DrivesMoment R) (r : DrivesReading R) (m : DrivesMoment R) : Prop :=
  |(sense r m.pre).currentY - start.post.currentY| > 3.0

/-- What the iteration of the hold senses has turned since the hold started. -/
def Turned (start : DrivesMoment R) (r : DrivesReading R) (m : DrivesMoment R) : Prop :=
  |(sense r m.pre).currentAngle - start.post.currentAngle| > 3.0

/-- There is nothing to correct. -/
def Unmoved (start m : DrivesMoment R) : Prop :=
  ∀ r, m.input = .execute r → m.pre.currentDriveState = .autoHold →
    ¬ MovedInY start r m ∧ ¬ Turned start r m

end SparxRobot.Drives
