import Mathlib.Algebra.Order.Field.Basic
import Mathlib.Data.List.ReduceOption
import Mathlib.Tactic.Linarith
import Mathlib.Tactic.Ring
import SparxRobot.Machine.Run

/-! Speeds and distances from the raw count of an encoder. Times are microseconds of the FPGA
clock; times and counts are `long`s that no run of the robot makes overflow. -/
namespace SparxRobot.Sensors
open Machine

variable {R : Type*} [Field R]

/-- The fields of `EncoderData`; `useCounter` tells which constructor was called. -/
structure EncoderData (R : Type*) [Field R] where
  distPerTickForward : R
  distPerTickReverse : R
  lastTime : ℤ
  lastEncoderCount : ℤ := 0
  lastSpeedCount : ℤ := 0
  speed : R := 0
  forwardCount : ℤ := 0
  reverseCount : ℤ := 0
  deltaCount : ℤ := 0
  useCounter : Bool := false

/-- What the clock and the hardware say. -/
structure Reading where
  time : ℤ
  count : ℤ
  deriving DecidableEq, Repr

namespace EncoderData

def ofEncoder (distPerTick : R) (now : ℤ) : EncoderData R :=
  { distPerTickForward := distPerTick, distPerTickReverse := distPerTick, lastTime := now }

def setReverseDistancePerPulse (reverseDist : R) (d : EncoderData R) : EncoderData R :=
  { d with distPerTickReverse := reverseDist }

/-- A call that comes early counts the ticks and leaves the speed alone. -/
def calculateSpeed (r : Reading) (d : EncoderData R) : EncoderData R :=
  let elapsedTime := r.time - d.lastTime
  let deltaCount := r.count - d.lastEncoderCount
  let d := { d with
    deltaCount := deltaCount
    lastEncoderCount := r.count
    forwardCount := if deltaCount ≥ 0 then d.forwardCount + deltaCount else d.forwardCount
    reverseCount := if deltaCount ≥ 0 then d.reverseCount else d.reverseCount + deltaCount }
  if elapsedTime < 18000 then d
  else
    let tempCount := r.count - d.lastSpeedCount
    { d with
      lastSpeedCount := r.count
      lastTime := r.time
      speed := (if tempCount > 0 then d.distPerTickForward else d.distPerTickReverse) *
        tempCount / (elapsedTime / 1000000.0) }

/-- `count` is what a counter reads when it is asked. -/
def getDistance (count : ℤ) (d : EncoderData R) : R :=
  if d.useCounter then count * d.distPerTickForward
  else d.forwardCount * d.distPerTickForward + d.reverseCount * d.distPerTickReverse

/-- `r` is what the clock says, and the hardware once it is reset itself. -/
def reset (r : Reading) (d : EncoderData R) : EncoderData R :=
  { d with
    lastTime := r.time
    lastEncoderCount := r.count
    forwardCount := 0
    reverseCount := 0
    deltaCount := 0 }

end EncoderData

inductive EncoderEvent (R : Type*) where
  | calculateSpeed (r : Reading)
  | setReverseDistancePerPulse (reverseDist : R)
  | reset (now : ℤ)

/-- The output is the speed of a call that computes one. The hardware reads 0 after a reset. -/
def encoderStep : Step (EncoderData R) (EncoderEvent R) (Option R)
  | d, .calculateSpeed r =>
      let t := d.calculateSpeed r
      (t, if r.time - d.lastTime < 18000 then none else some t.speed)
  | d, .setReverseDistancePerPulse reverseDist => (d.setReverseDistancePerPulse reverseDist, none)
  | d, .reset now => (d.reset ⟨now, 0⟩, none)

/-- The calls of a run. -/
def calls (readings : List Reading) : List (EncoderEvent R) := readings.map .calculateSpeed

section Windows

/-- The window each reading closes, if it does: it opened where the last one closed, and is at
least 18 milliseconds long. -/
def windows : Reading → List Reading → List (Option (Reading × Reading))
  | _, [] => []
  | opened, r :: rs =>
      if r.time - opened.time < 18000 then none :: windows opened rs
      else some (opened, r) :: windows r rs

/-- Where the window opened that no reading has closed. -/
def openedLast : Reading → List Reading → Reading
  | opened, [] => opened
  | opened, r :: rs =>
      if r.time - opened.time < 18000 then openedLast opened rs else openedLast r rs

/-- The net ticks of a window, weighed by their direction. -/
def travelled (forward reverse : R) (ticks : ℤ) : R :=
  (if ticks > 0 then forward else reverse) * ticks

def seconds (w : Reading × Reading) : R := ((w.2.time - w.1.time : ℤ) : R) / 1000000.0

/-- The distance of the net ticks of a window over its duration. -/
def speedOver (forward reverse : R) (w : Reading × Reading) : R :=
  travelled forward reverse (w.2.count - w.1.count) / seconds w

/-- The windows follow one another without a gap, from `opened` to `closed`. -/
def Tile : Reading → Reading → List (Reading × Reading) → Prop
  | opened, closed, [] => opened = closed
  | opened, closed, w :: ws => w.1 = opened ∧ Tile w.2 closed ws

theorem windows_tile (opened : Reading) (readings : List Reading) :
    Tile opened (openedLast opened readings) (windows opened readings).reduceOption := by
  induction readings generalizing opened with
  | nil => exact rfl
  | cons r rs ih =>
    by_cases hearly : r.time - opened.time < 18000
    · simp only [windows, openedLast, hearly, ↓reduceIte, List.reduceOption_cons_of_none]
      exact ih opened
    · simp only [windows, openedLast, hearly, ↓reduceIte, List.reduceOption_cons_of_some]
      exact ⟨rfl, ih r⟩

end Windows

end SparxRobot.Sensors
