import SparxRobot.Control.Saturation
import SparxRobot.Drives.PIDLimits

/-! Limiting with anti-windup: what a call of the controller answers and accumulates when it is
told to keep to its limits. -/
namespace SparxRobot.Drives
open Machine Control

variable {R : Type*} [Field R] [LinearOrder R]

namespace PID

section Checked

/-- A quotient, when there is one. -/
def divide (a b : R) : Option R := if b = 0 then none else some (a / b)

/-- `limitAbove` with its division observed. -/
def limitAboveChecked (output : R) (p : PID R) : Option (PID R × R) :=
  if output > p.outMax then
    let totalizer :=
      if p.integral > output - p.outMax then
        (divide (output - p.outMax) p.ki).map fun excess => p.totalizer - excess
      else if p.integral > 0 then some 0 else some p.totalizer
    totalizer.map fun totalizer =>
      ({ p with totalizer := totalizer, integral := p.ki * totalizer }, p.outMax)
  else some (p, output)

def limitBelowChecked (output : R) (p : PID R) : Option (PID R × R) :=
  if output < p.outMin then
    let totalizer :=
      if p.integral < output - p.outMin then
        (divide (output - p.outMin) p.ki).map fun excess => p.totalizer - excess
      else if p.integral < 0 then some 0 else some p.totalizer
    totalizer.map fun totalizer =>
      ({ p with totalizer := totalizer, integral := p.ki * totalizer }, p.outMin)
  else some (p, output)

/-- A call without the early return, before it limits its output. -/
def unlimited (now : ℤ) (speed setPoint : R) (p : PID R) : PID R :=
  { p with
    pastTime := now / 1000.0
    internalSP := p.ramp (p.elapsedTime now) setPoint
    proportional := p.error now speed setPoint * p.kp
    totalizer := p.totalizer + p.error now speed setPoint * p.elapsedTime now
    integral := (p.totalizer + p.error now speed setPoint * p.elapsedTime now) * p.ki
    feedForward := p.kf * setPoint }

/-- The sum of the three parts of the output. -/
def raw (p : PID R) : R := p.proportional + p.integral + p.feedForward

/-- What the integral is added to. -/
def direct (p : PID R) : R := p.proportional + p.feedForward

/-- A call of `loop` with its divisions observed. -/
def loopChecked (now : ℤ) (speed setPoint : R) (p : PID R) : Option (PID R × R) :=
  if setPoint = 0 ∧ p.stopFunction then some (p.loop now speed setPoint)
  else
    let q := p.unlimited now speed setPoint
    if p.outMaxMinEna then
      (q.limitAboveChecked q.raw).bind fun (q, output) => q.limitBelowChecked output
    else some (q, q.raw)

end Checked

/-- The integral is what `ki` makes of the accumulated error. -/
def Accumulated (p : PID R) : Prop := p.integral = p.ki * p.totalizer

/-- The controller as the limits leave it, and the output they leave. -/
structure Limited (p : PID R) (result : PID R × R) : Prop where
  output : result.2 = clamp p.outMin p.outMax p.raw
  integral : result.1.integral = unwind p.outMin p.outMax p.direct p.integral
  accumulated : Accumulated result.1
  proportional : result.1.proportional = p.proportional
  feedForward : result.1.feedForward = p.feedForward

variable {p : PID R} {output : R}

theorem Accumulated.limitAbove (h : Accumulated p) : Accumulated (p.limitAbove output).1 := by
  unfold PID.limitAbove
  split
  · rfl
  · exact h

theorem limitAbove_of_le (h : output ≤ p.outMax) : p.limitAbove output = (p, output) :=
  if_neg h.not_gt

theorem limitBelow_of_le (h : p.outMin ≤ output) : p.limitBelow output = (p, output) :=
  if_neg h.not_gt

theorem unlimited_accumulated (now : ℤ) (speed setPoint : R) :
    Accumulated (p.unlimited now speed setPoint) := mul_comm _ _

omit [LinearOrder R] in
/-- Where there is an integral there is a `ki` to divide by. -/
theorem Accumulated.ki_ne_zero (h : Accumulated p) (hintegral : p.integral ≠ 0) : p.ki ≠ 0 := by
  intro hzero
  exact hintegral (by rw [h, hzero, zero_mul])

theorem Accumulated.divide_ki (h : Accumulated p) (hintegral : p.integral ≠ 0) (excess : R) :
    divide excess p.ki = some (excess / p.ki) := if_neg (h.ki_ne_zero hintegral)

omit [LinearOrder R] in
/-- The correction at a limit takes the excess off the integral. -/
theorem Accumulated.corrected (h : Accumulated p) (hintegral : p.integral ≠ 0) (excess : R) :
    p.ki * (p.totalizer - excess / p.ki) = p.integral - excess := by
  rw [mul_sub, mul_div_cancel₀ _ (h.ki_ne_zero hintegral), ← h]

omit [LinearOrder R] in
theorem raw_eq (p : PID R) : p.raw = p.direct + p.integral := by
  unfold raw direct
  ring

section Limits

variable [IsStrictOrderedRing R]

theorem limitAboveChecked_eq (h : Accumulated p) :
    p.limitAboveChecked output = some (p.limitAbove output) := by
  unfold limitAboveChecked limitAbove
  split
  · next hover =>
    dsimp only
    split
    · next hintegral =>
      have hnonzero : p.integral ≠ 0 := by linarith
      rw [h.divide_ki hnonzero]
      rfl
    · split <;> rfl
  · rfl

theorem limitBelowChecked_eq (h : Accumulated p) :
    p.limitBelowChecked output = some (p.limitBelow output) := by
  unfold limitBelowChecked limitBelow
  split
  · next hunder =>
    dsimp only
    split
    · next hintegral =>
      have hnonzero : p.integral ≠ 0 := by linarith
      rw [h.divide_ki hnonzero]
      rfl
    · split <;> rfl
  · rfl

theorem limitAbove_of_gt (h : Accumulated p) (hlimits : p.outMin ≤ p.outMax)
    (hover : p.outMax < p.raw) : Limited p (p.limitAbove p.raw) := by
  have hsum := raw_eq p
  have hroom : p.integral > p.raw - p.outMax ↔ p.direct < p.outMax := by
    rw [hsum]
    constructor <;> intro hlt <;> linarith
  have hunwind := unwind_of_gt hlimits (hsum ▸ hover)
  unfold limitAbove
  rw [if_pos hover]
  refine ⟨(clamp_of_ge hlimits hover.le).symm, ?_, rfl, rfl, rfl⟩
  rw [hunwind]
  simp only [hroom]
  split_ifs with hdirect hpos
  · rw [h.corrected (by linarith)]
    linarith
  · exact mul_zero _
  · exact h.symm

theorem limitBelow_of_lt (h : Accumulated p) (hlimits : p.outMin ≤ p.outMax)
    (hunder : p.raw < p.outMin) : Limited p (p.limitBelow p.raw) := by
  have hsum := raw_eq p
  have hroom : p.integral < p.raw - p.outMin ↔ p.outMin < p.direct := by
    rw [hsum]
    constructor <;> intro hlt <;> linarith
  have hunwind := unwind_of_lt hlimits (hsum ▸ hunder)
  unfold limitBelow
  rw [if_pos hunder]
  refine ⟨(clamp_of_le hlimits hunder.le).symm, ?_, rfl, rfl, rfl⟩
  rw [hunwind]
  simp only [hroom]
  split_ifs with hdirect hneg
  · rw [h.corrected (by linarith)]
    linarith
  · exact mul_zero _
  · exact h.symm

/-- The second limit is not reached when the first one was. -/
theorem limited_of_accumulated (h : Accumulated p) (hlimits : p.outMin ≤ p.outMax) :
    Limited p ((p.limitAbove p.raw).1.limitBelow (p.limitAbove p.raw).2) := by
  rcases lt_or_ge p.outMax p.raw with hover | hover
  · have habove := limitAbove_of_gt h hlimits hover
    have hkept : (p.limitAbove p.raw).1.outMin ≤ (p.limitAbove p.raw).2 := by
      rw [(limitAbove_settings p p.raw).outMin, habove.output]
      exact (clamp_mem hlimits).1
    rwa [limitBelow_of_le hkept]
  rw [limitAbove_of_le hover]
  rcases lt_or_ge p.raw p.outMin with hunder | hunder
  · exact limitBelow_of_lt h hlimits hunder
  · rw [limitBelow_of_le hunder]
    refine ⟨(clamp_of_mem hunder hover).symm, ?_, h, rfl, rfl⟩
    rw [raw_eq] at hunder hover
    exact (unwind_of_mem hunder hover).symm

/-- A call past the early return. -/
theorem loop_eq (now : ℤ) (speed setPoint : R) (hgo : ¬ (setPoint = 0 ∧ p.stopFunction = true)) :
    p.loop now speed setPoint =
      if p.outMaxMinEna then
        let above :=
          (p.unlimited now speed setPoint).limitAbove (p.unlimited now speed setPoint).raw
        above.1.limitBelow above.2
      else (p.unlimited now speed setPoint, (p.unlimited now speed setPoint).raw) := by
  have hthousand : (1000.0 : R) = 1000 := by norm_num
  simp only [loop, hgo, ↓reduceIte, unlimited, raw, error, elapsedTime, hthousand]
  rfl

/-- No call divides by zero. -/
theorem loopChecked_eq (now : ℤ) (speed setPoint : R) :
    p.loopChecked now speed setPoint = some (p.loop now speed setPoint) := by
  unfold loopChecked
  split
  · rfl
  · next hgo =>
    have haccumulated : Accumulated (p.unlimited now speed setPoint) :=
      unlimited_accumulated now speed setPoint
    rw [loop_eq now speed setPoint hgo]
    split
    · simp only [limitAboveChecked_eq haccumulated, Option.bind_some,
        limitBelowChecked_eq haccumulated.limitAbove]
    · rfl

end Limits

end PID

section Run

/-- The public methods of a controller. -/
inductive PIDEvent (R : Type*) where
  | loop (c : PIDCall R)
  | breakMode (condition : Bool)
  | maxMinMode (enabled : Bool)
  | setMaxMin (min max : R)
  | spRampMode (enabled : Bool)
  | setSPRamp (ramp : R)
  | setMaxLoopTime (maxTime : R)
  | pidconstants (newkp newki newkf : R)

/-- The output is the answer of `loop`. -/
def controllerStep : Step (PID R) (PIDEvent R) (Option R)
  | p, .loop c => ((p.loop c.now c.speed c.setPoint).1, some (p.loop c.now c.speed c.setPoint).2)
  | p, .breakMode condition => (p.breakMode condition, none)
  | p, .maxMinMode enabled => (p.maxMinMode enabled, none)
  | p, .setMaxMin min max => (p.setMaxMin min max, none)
  | p, .spRampMode enabled => (p.spRampMode enabled, none)
  | p, .setSPRamp ramp => (p.setSPRamp ramp, none)
  | p, .setMaxLoopTime maxTime => (p.setMaxLoopTime maxTime, none)
  | p, .pidconstants newkp newki newkf => (p.pidconstants newkp newki newkf, none)

/-- What a limited call answers and keeps: `q` is the controller after it. -/
structure KeepsToLimits (p : PID R) (c : PIDCall R) (q : PID R) (output : R) : Prop where
  divides : p.loopChecked c.now c.speed c.setPoint = some (q, output)
  proportional : q.proportional = (p.unlimited c.now c.speed c.setPoint).proportional
  feedForward : q.feedForward = (p.unlimited c.now c.speed c.setPoint).feedForward
  output_eq : output = max p.outMin (min p.outMax (p.unlimited c.now c.speed c.setPoint).raw)
  accumulated : q.integral = q.ki * q.totalizer
  integral_mem : q.integral ∈ Set.uIcc 0 (p.unlimited c.now c.speed c.setPoint).integral
  shown : q.integral ≠ 0 → q.integral ≠ (p.unlimited c.now c.speed c.setPoint).integral →
    q.proportional + q.integral + q.feedForward = output
  bounded : q.integral ∈ Set.Icc (min 0 (p.outMin - (q.proportional + q.feedForward)))
    (max 0 (p.outMax - (q.proportional + q.feedForward)))

/-- The moment is no call with limiting on and the limits in order, or the call returns early,
or it keeps to the limits. -/
def LimitedCall (m : Moment (PID R) (PIDEvent R) (Option R)) : Prop :=
  ∀ c, m.input = .loop c → m.pre.outMaxMinEna = true → m.pre.outMin ≤ m.pre.outMax →
    ¬ (c.setPoint = 0 ∧ m.pre.stopFunction = true) →
      ∃ output, m.output = some output ∧ KeepsToLimits m.pre c m.post output

variable [IsStrictOrderedRing R]

theorem keepsToLimits_loop (p : PID R) (c : PIDCall R) (hlimiting : p.outMaxMinEna = true)
    (hlimits : p.outMin ≤ p.outMax) (hgo : ¬ (c.setPoint = 0 ∧ p.stopFunction = true)) :
    KeepsToLimits p c (p.loop c.now c.speed c.setPoint).1
      (p.loop c.now c.speed c.setPoint).2 := by
  let u := p.unlimited c.now c.speed c.setPoint
  have hlimited : PID.Limited u (p.loop c.now c.speed c.setPoint) := by
    rw [PID.loop_eq _ _ _ hgo, if_pos hlimiting]
    exact PID.limited_of_accumulated (PID.unlimited_accumulated _ _ _) hlimits
  obtain ⟨houtput, hintegral, haccumulated, hproportional, hforward⟩ := hlimited
  have hdirect : (p.loop c.now c.speed c.setPoint).1.proportional +
      (p.loop c.now c.speed c.setPoint).1.feedForward = u.direct := by
    rw [hproportional, hforward, PID.direct]
  have hraw : u.direct + u.integral = u.raw := (PID.raw_eq u).symm
  refine ⟨PID.loopChecked_eq _ _ _, hproportional, hforward, houtput, haccumulated, ?_, ?_, ?_⟩
  · rw [hintegral]
    exact unwind_mem_uIcc
  · intro hzero hchanged
    rw [hintegral] at hzero hchanged
    have hshown := direct_add_unwind hlimits hzero hchanged
    rw [add_right_comm, hdirect, hintegral, houtput, ← hraw]
    exact hshown
  · rw [hdirect, hintegral]
    exact unwind_mem

/-- Over every run of a controller's public methods from any state, limited calls divide by
nothing that is zero, answer the clamped sum, and accumulate no more than the limits use. -/
theorem limited_without_windup (p : PID R) (events : List (PIDEvent R)) :
    ∀ m ∈ trace controllerStep p events, LimitedCall m := by
  intro m hm c hinput hlimiting hlimits hgo
  have hmoment := eq_moment_of_mem hm
  rw [hinput] at hmoment
  rw [hmoment]
  exact ⟨_, rfl, keepsToLimits_loop m.pre c hlimiting hlimits hgo⟩

/-- The first call for a speed of 100, by a controller of a wheel that is told to limit. -/
theorem firstLimitedCall_keeps :
    let p := (wheelPID ℚ).maxMinMode true
    let c : PIDCall ℚ := ⟨1490000000000, 0, 100⟩
    ∃ output, (controllerStep p (.loop c)).2 = some output ∧
      KeepsToLimits p c (controllerStep p (.loop c)).1 output :=
  limited_without_windup _ [.loop ⟨1490000000000, 0, 100⟩] _ List.mem_cons_self _ rfl rfl
    (by norm_num [wheelPID, PID.mk3, PID.breakMode, PID.setMaxMin, PID.setSPRamp, PID.maxMinMode])
    (by norm_num)

end Run

end SparxRobot.Drives
