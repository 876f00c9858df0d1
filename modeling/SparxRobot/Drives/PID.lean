import Mathlib.Algebra.Order.Field.Basic
import Mathlib.Algebra.Order.Ring.Unbundled.Rat
import Mathlib.Tactic.Common

/-! The speed controller of one side of the drives. -/
namespace SparxRobot.Drives

variable {R : Type*} [Field R] [LinearOrder R]

/-- The fields of `PID`, with its defaults. -/
structure PID (R : Type*) [Field R] where
  kp : R := 0
  ki : R := 0
  kf : R := 0
  integral : R := 0
  proportional : R := 0
  feedForward : R := 0
  totalizer : R := 0
  outMax : R := 1
  outMin : R := -1
  pastTime : R := 0
  spRampLimit : R := 0
  internalSP : R := 0
  loopTimeLimit : R := 0.1
  spRamping : Bool := false
  outMaxMinEna : Bool := false
  stopFunction : Bool := false

namespace PID

def mk3 (kI kP ff : R) : PID R := { ki := kI, kp := kP, kf := ff }

def breakMode (condition : Bool) (p : PID R) : PID R := { p with stopFunction := condition }

def maxMinMode (enabled : Bool) (p : PID R) : PID R := { p with outMaxMinEna := enabled }

/-- Sets the limits; it does not switch limiting on. -/
def setMaxMin (min max : R) (p : PID R) : PID R := { p with outMin := min, outMax := max }

def spRampMode (enabled : Bool) (p : PID R) : PID R := { p with spRamping := enabled }

def setSPRamp (ramp : R) (p : PID R) : PID R := { p with spRamping := true, spRampLimit := ramp }

def setMaxLoopTime (maxTime : R) (p : PID R) : PID R := { p with loopTimeLimit := maxTime }

def pidconstants (newkp newki newkf : R) (p : PID R) : PID R :=
  { p with kp := newkp, ki := newki, kf := newkf }

/-- The internal set point, moved towards the set point by at most the ramp. -/
def ramp (elapsedTime setPoint : R) (p : PID R) : R :=
  if p.spRamping ∧ |setPoint - p.internalSP| > p.spRampLimit * elapsedTime then
    if setPoint - p.internalSP > 0 then p.internalSP + p.spRampLimit * elapsedTime
    else p.internalSP - p.spRampLimit * elapsedTime
  else setPoint

/-- The upper limit, with the accumulated error taken back. -/
def limitAbove (output : R) (p : PID R) : PID R × R :=
  if output > p.outMax then
    let totalizer :=
      if p.integral > output - p.outMax then p.totalizer - (output - p.outMax) / p.ki
      else if p.integral > 0 then 0 else p.totalizer
    ({ p with totalizer := totalizer, integral := p.ki * totalizer }, p.outMax)
  else (p, output)

def limitBelow (output : R) (p : PID R) : PID R × R :=
  if output < p.outMin then
    let totalizer :=
      if p.integral < output - p.outMin then p.totalizer - (output - p.outMin) / p.ki
      else if p.integral < 0 then 0 else p.totalizer
    ({ p with totalizer := totalizer, integral := p.ki * totalizer }, p.outMin)
  else (p, output)

/-- One call, at the clock reading `now` in milliseconds. -/
def loop (now : ℤ) (speed setPoint : R) (p : PID R) : PID R × R :=
  let currentTime : R := now / 1000
  let elapsedTime := currentTime - p.pastTime
  let p := { p with pastTime := currentTime }
  if setPoint = 0 ∧ p.stopFunction then
    ({ p with totalizer := 0, internalSP := 0, proportional := 0, integral := 0, feedForward := 0 },
      0)
  else
    let elapsedTime := if elapsedTime > p.loopTimeLimit then p.loopTimeLimit else elapsedTime
    let p := { p with internalSP := p.ramp elapsedTime setPoint }
    let error := p.internalSP - speed
    let totalizer := p.totalizer + error * elapsedTime
    let p := { p with
      proportional := error * p.kp
      totalizer := totalizer
      integral := totalizer * p.ki
      feedForward := p.kf * setPoint }
    let output := p.proportional + p.integral + p.feedForward
    if p.outMaxMinEna then
      let (p, output) := p.limitAbove output
      p.limitBelow output
    else (p, output)

end PID

end SparxRobot.Drives
