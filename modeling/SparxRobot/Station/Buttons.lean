import Mathlib.Data.Int.Notation
import Mathlib.Tactic.Common

/-! Button edges. Each subsystem keeps the time of the last press it has seen; the
station keeps the time of the last press there was. -/
namespace SparxRobot

/-- `getButtonRising`: whether there was a press since the last one seen, and the press
seen from now on. -/
def getButtonRising (seen pressed : ℤ) : Bool × ℤ :=
  if seen < pressed then (decide (pressed > 0), pressed) else (false, seen)

/-- A press is reported once. -/
theorem getButtonRising_again (seen pressed : ℤ) :
    getButtonRising (getButtonRising seen pressed).2 pressed =
      (false, (getButtonRising seen pressed).2) := by
  unfold getButtonRising
  by_cases h : seen < pressed
  · simp [h]
  · simp [h]

end SparxRobot
