import SparxRobot.Drives.AntiWindup
import SparxRobot.Machine.Total

/-! How often the controller is called does not matter: the ramp and the accumulated error
depend on the time the calls account for. -/
namespace SparxRobot.Drives
open Machine Control

variable {R : Type*} [Field R] [LinearOrder R]

namespace PID

variable {p : PID R}

/-- What limiting leaves alone. -/
theorem limit_ramp (output output' : R) :
    ((p.limitAbove output).1.limitBelow output').1.internalSP = p.internalSP ∧
      ((p.limitAbove output).1.limitBelow output').1.pastTime = p.pastTime := by
  unfold limitAbove limitBelow
  (repeat' split) <;> exact ⟨rfl, rfl⟩

variable [IsStrictOrderedRing R] (now : ℤ) (speed setPoint : R)

/-- A call past the early return moves the internal set point along its ramp. -/
theorem loop_ramp (hgo : ¬ (setPoint = 0 ∧ p.stopFunction = true)) :
    (p.loop now speed setPoint).1.internalSP = p.ramp (p.elapsedTime now) setPoint ∧
      (p.loop now speed setPoint).1.pastTime = now / 1000.0 := by
  rw [loop_eq now speed setPoint hgo]
  split
  · exact limit_ramp _ _
  · exact ⟨rfl, rfl⟩

/-- The ramp is a limited approach. -/
theorem ramp_eq_approach (elapsed : R) (hramping : p.spRamping = true)
    (hlimit : 0 ≤ p.spRampLimit * elapsed) :
    p.ramp elapsed setPoint = approach (p.spRampLimit * elapsed) setPoint p.internalSP := by
  rw [approach_eq hlimit]
  simp only [ramp, hramping, true_and, gt_iff_lt]

end PID

section Calls

/-- The clock a call reads, in seconds. -/
def PIDCall.time (c : PIDCall R) : R := c.now / 1000.0

/-- The time a call accounts for. -/
def accountedIn (m : Moment (PID R) (PIDCall R) R) : R := m.pre.elapsedTime m.input.now

/-- The time the calls of a run account for. -/
def accounted (p : PID R) (calls : List (PIDCall R)) : R := total pidStep accountedIn p calls

/-- Calls for one set point, none of which returns early, with a clock that does not go back. -/
structure Steady (p : PID R) (setPoint : R) (calls : List (PIDCall R)) : Prop where
  setPoint_eq : ∀ c ∈ calls, c.setPoint = setPoint
  goesOn : setPoint ≠ 0 ∨ p.stopFunction = false
  ordered : List.IsChain (· ≤ ·) (p.pastTime :: calls.map PIDCall.time)
  loopTimeLimit : 0 ≤ p.loopTimeLimit

/-- No gap between two calls, or before the first, is longer than the time limit. -/
def GapsWithin (p : PID R) (calls : List (PIDCall R)) : Prop :=
  List.IsChain (fun before after => after - before ≤ p.loopTimeLimit)
    (p.pastTime :: calls.map PIDCall.time)

/-- Two runs end with the same clock reading. -/
def EndTogether (calls calls' : List (PIDCall R)) : Prop :=
  calls.getLast?.map PIDCall.time = calls'.getLast?.map PIDCall.time

end Calls

section Step

variable {p : PID R} {setPoint : R} {c : PIDCall R} {calls : List (PIDCall R)}

theorem pidStep_settings (p : PID R) (c : PIDCall R) : PID.SameSettings p (pidStep p c).1 :=
  p.loop_settings c.now c.speed c.setPoint

theorem Steady.head (h : Steady p setPoint (c :: calls)) : c.setPoint = setPoint ∧
    p.pastTime ≤ c.time ∧ ¬ (c.setPoint = 0 ∧ p.stopFunction = true) := by
  have hset : c.setPoint = setPoint := h.setPoint_eq c List.mem_cons_self
  refine ⟨hset, (List.isChain_cons_cons.mp h.ordered).1, ?_⟩
  rintro ⟨hzero, hstop⟩
  rcases h.goesOn with hne | hoff
  · exact hne (hset ▸ hzero)
  · exact Bool.noConfusion (hoff.symm.trans hstop)

variable [IsStrictOrderedRing R]

theorem Steady.step_ramp (h : Steady p setPoint (c :: calls)) :
    (pidStep p c).1.internalSP = p.ramp (p.elapsedTime c.now) setPoint ∧
      (pidStep p c).1.pastTime = c.time := by
  obtain ⟨hset, -, hgo⟩ := h.head
  have hramp := PID.loop_ramp c.now c.speed c.setPoint hgo
  rw [hset] at hramp
  rw [pidStep, hset]
  exact hramp

theorem Steady.tail (h : Steady p setPoint (c :: calls)) :
    Steady (pidStep p c).1 setPoint calls := by
  refine ⟨fun d hd => h.setPoint_eq d (List.mem_cons_of_mem _ hd), ?_, ?_, ?_⟩
  · rw [(pidStep_settings p c).stopFunction]
    exact h.goesOn
  · rw [h.step_ramp.2]
    exact (List.isChain_cons_cons.mp h.ordered).2
  · rw [(pidStep_settings p c).loopTimeLimit]
    exact h.loopTimeLimit

theorem Steady.elapsed_nonneg (h : Steady p setPoint (c :: calls)) : 0 ≤ p.elapsedTime c.now := by
  have horder : p.pastTime ≤ c.now / 1000.0 := h.head.2.1
  unfold PID.elapsedTime
  split
  · exact h.loopTimeLimit
  · linarith

theorem Steady.step_approach (h : Steady p setPoint (c :: calls)) (hramping : p.spRamping = true)
    (hlimit : 0 ≤ p.spRampLimit) : (pidStep p c).1.internalSP =
      approach (p.spRampLimit * p.elapsedTime c.now) setPoint p.internalSP := by
  rw [h.step_ramp.1, PID.ramp_eq_approach _ _ hramping (mul_nonneg hlimit h.elapsed_nonneg)]

/-- Without ramp and limits a call accumulates the error over the time it accounts for. -/
theorem step_accumulates (h : Steady p setPoint (c :: calls)) (hramping : p.spRamping = false)
    (hlimiting : p.outMaxMinEna = false) : (pidStep p c).1.totalizer =
      p.totalizer + (setPoint - c.speed) * p.elapsedTime c.now ∧
      (pidStep p c).1.integral = (pidStep p c).1.totalizer * p.ki := by
  obtain ⟨hset, -, hgo⟩ := h.head
  have hramp : ∀ elapsed, p.ramp elapsed setPoint = setPoint := by
    intro elapsed
    simp [PID.ramp, hramping]
  rw [pidStep, PID.loop_eq _ _ _ hgo, if_neg (by simp [hlimiting]), hset]
  constructor <;> simp only [PID.unlimited, PID.error, hramp]

end Step

section Runs

variable [IsStrictOrderedRing R] {p : PID R} {setPoint : R} {calls calls' : List (PIDCall R)}

/-- A run ramps as one step over the time it accounts for does. -/
theorem Steady.ramped (h : Steady p setPoint calls) (hramping : p.spRamping = true)
    (hlimit : 0 ≤ p.spRampLimit) : 0 ≤ accounted p calls ∧
      (final pidStep p calls).internalSP =
        approach (p.spRampLimit * accounted p calls) setPoint p.internalSP ∧
      ∀ m ∈ trace pidStep p calls, m.post.internalSP ∈ Set.uIcc m.pre.internalSP setPoint := by
  induction calls generalizing p with
  | nil => simp [accounted, final, trace]
  | cons c calls ih =>
    have hsame := pidStep_settings p c
    obtain ⟨hnonneg, hfinal, hsides⟩ := ih h.tail (hsame.spRamping.trans hramping)
      (hsame.spRampLimit ▸ hlimit)
    have hhead := h.step_approach hramping hlimit
    have hstep : 0 ≤ p.spRampLimit * p.elapsedTime c.now := mul_nonneg hlimit h.elapsed_nonneg
    have hsum : accounted p (c :: calls) =
        p.elapsedTime c.now + accounted (pidStep p c).1 calls := total_cons _ _ _
    refine ⟨?_, ?_, ?_⟩
    · rw [hsum]
      exact add_nonneg h.elapsed_nonneg hnonneg
    · rw [final, hfinal, hhead, hsame.spRampLimit, hsum, mul_add]
      exact approach_approach hstep (mul_nonneg hlimit hnonneg)
    · rw [trace, List.forall_mem_cons]
      refine ⟨?_, hsides⟩
      change (pidStep p c).1.internalSP ∈ _
      rw [hhead]
      exact approach_mem_uIcc hstep

/-- Without ramp and limits a run accumulates the error over the time it accounts for. -/
theorem Steady.accumulated (h : Steady p setPoint calls) (hramping : p.spRamping = false)
    (hlimiting : p.outMaxMinEna = false) {speed : R} (hspeed : ∀ c ∈ calls, c.speed = speed) :
    (final pidStep p calls).totalizer = p.totalizer + (setPoint - speed) * accounted p calls := by
  induction calls generalizing p with
  | nil => simp [accounted, final]
  | cons c calls ih =>
    have hsame := pidStep_settings p c
    have htail := ih h.tail (hsame.spRamping.trans hramping) (hsame.outMaxMinEna.trans hlimiting)
      fun d hd => hspeed d (List.mem_cons_of_mem _ hd)
    have hsum : accounted p (c :: calls) =
        p.elapsedTime c.now + accounted (pidStep p c).1 calls := total_cons _ _ _
    rw [final, htail, (step_accumulates h hramping hlimiting).1,
      hspeed c List.mem_cons_self, hsum]
    ring

/-- After such a run the integral is what `ki` makes of the accumulated error, and the set
point is reached. -/
theorem Steady.settled (h : Steady p setPoint calls) (hramping : p.spRamping = false)
    (hlimiting : p.outMaxMinEna = false) (hne : calls ≠ []) :
    (final pidStep p calls).integral = (final pidStep p calls).totalizer * p.ki ∧
      (final pidStep p calls).internalSP = setPoint := by
  induction calls generalizing p with
  | nil => exact absurd rfl hne
  | cons c calls ih =>
    have hsame := pidStep_settings p c
    rcases eq_or_ne calls [] with rfl | hmore
    · refine ⟨(step_accumulates h hramping hlimiting).2, ?_⟩
      rw [final, final, h.step_ramp.1]
      simp [PID.ramp, hramping]
    · have htail := ih h.tail (hsame.spRamping.trans hramping)
        (hsame.outMaxMinEna.trans hlimiting) hmore
      rwa [hsame.ki] at htail

/-- With no gap too long the calls account for all the time there was. -/
theorem Steady.accounted_eq (h : Steady p setPoint calls) (hgaps : GapsWithin p calls) :
    p.pastTime + accounted p calls = (calls.getLast?.map PIDCall.time).getD p.pastTime := by
  induction calls generalizing p with
  | nil => simp [accounted]
  | cons c calls ih =>
    obtain ⟨hgap, hrest⟩ := List.isChain_cons_cons.mp hgaps
    have hpast : (pidStep p c).1.pastTime = c.time := h.step_ramp.2
    have htail := ih h.tail (by
      unfold GapsWithin
      rwa [hpast, (pidStep_settings p c).loopTimeLimit])
    have helapsed : p.elapsedTime c.now = c.time - p.pastTime := if_neg hgap.not_gt
    have hsum : accounted p (c :: calls) =
        p.elapsedTime c.now + accounted (pidStep p c).1 calls := total_cons _ _ _
    rw [hpast] at htail
    rw [hsum, helapsed, ← add_assoc, add_sub_cancel, htail]
    cases hlast : calls.getLast? with
    | none => simp [List.getLast?_eq_none_iff.mp hlast]
    | some last => simp [List.getLast?_cons, hlast]

/-- Runs that end together, with no gap too long, account for the same time. -/
theorem Steady.accounted_congr (h : Steady p setPoint calls) (h' : Steady p setPoint calls')
    (hgaps : GapsWithin p calls) (hgaps' : GapsWithin p calls')
    (hend : EndTogether calls calls') : accounted p calls = accounted p calls' := by
  have hsum := h.accounted_eq hgaps
  rw [hend, ← h'.accounted_eq hgaps'] at hsum
  exact add_left_cancel hsum

/-- What steady calls do depends on the time they account for, and not on how many they are:
the ramp, the accumulated error, and what two runs that end together leave. -/
theorem frequency_independent (h : Steady p setPoint calls) :
    (p.spRamping = true → 0 ≤ p.spRampLimit →
      |setPoint - (final pidStep p calls).internalSP| =
          max 0 (|setPoint - p.internalSP| - p.spRampLimit * accounted p calls) ∧
        ∀ m ∈ trace pidStep p calls, m.post.internalSP ∈ Set.uIcc m.pre.internalSP setPoint) ∧
    (p.spRamping = false → p.outMaxMinEna = false → ∀ speed, (∀ c ∈ calls, c.speed = speed) →
      (final pidStep p calls).totalizer =
        p.totalizer + (setPoint - speed) * accounted p calls) ∧
    ∀ calls', Steady p setPoint calls' → GapsWithin p calls → GapsWithin p calls' →
      EndTogether calls calls' →
        (p.spRamping = true → 0 ≤ p.spRampLimit →
          (final pidStep p calls).internalSP = (final pidStep p calls').internalSP) ∧
        (p.spRamping = false → p.outMaxMinEna = false → ∀ speed,
          (∀ c ∈ calls, c.speed = speed) → (∀ c ∈ calls', c.speed = speed) →
            (final pidStep p calls).internalSP = (final pidStep p calls').internalSP ∧
              (final pidStep p calls).integral = (final pidStep p calls').integral) := by
  refine ⟨?_, fun hramping hlimiting speed hspeed => h.accumulated hramping hlimiting hspeed, ?_⟩
  · intro hramping hlimit
    obtain ⟨hnonneg, hfinal, hsides⟩ := h.ramped hramping hlimit
    rw [hfinal, abs_sub_approach (mul_nonneg hlimit hnonneg)]
    exact ⟨rfl, hsides⟩
  · intro calls' h' hgaps hgaps' hend
    have hsum := h.accounted_congr h' hgaps hgaps' hend
    constructor
    · intro hramping hlimit
      rw [(h.ramped hramping hlimit).2.1, (h'.ramped hramping hlimit).2.1, hsum]
    · intro hramping hlimiting speed hspeed hspeed'
      rcases eq_or_ne calls [] with rfl | hne
      · obtain rfl : calls' = [] := by simpa [EndTogether] using hend.symm
        exact ⟨rfl, rfl⟩
      · have hne' : calls' ≠ [] := by
          rintro rfl
          exact hne (by simpa [EndTogether] using hend)
        obtain ⟨hintegral, hreached⟩ := h.settled hramping hlimiting hne
        obtain ⟨hintegral', hreached'⟩ := h'.settled hramping hlimiting hne'
        rw [hreached, hreached', hintegral, hintegral', h.accumulated hramping hlimiting hspeed,
          h'.accumulated hramping hlimiting hspeed', hsum]
        exact ⟨rfl, rfl⟩

/-- Two calls of a wheel's controller, fifty milliseconds apart, for a speed of 100. -/
def twoCalls : List (PIDCall ℚ) := [⟨50, 0, 100⟩, ⟨100, 5, 100⟩]

theorem twoCalls_ramp :
    |100 - (final pidStep (wheelPID ℚ) twoCalls).internalSP| =
      max 0 (|100 - (wheelPID ℚ).internalSP| -
        (wheelPID ℚ).spRampLimit * accounted (wheelPID ℚ) twoCalls) := by
  have hsteady : Steady (wheelPID ℚ) 100 twoCalls := by
    refine ⟨by simp [twoCalls], .inl (by norm_num), ?_, ?_⟩
    · simp only [twoCalls, wheelPID, PID.setSPRamp, PID.setMaxMin, PID.breakMode, PID.mk3,
        List.map_cons, List.map_nil, PIDCall.time, List.isChain_cons_cons, List.isChain_singleton]
      norm_num
    · norm_num [wheelPID, PID.setSPRamp, PID.setMaxMin, PID.breakMode, PID.mk3]
  have hlimit : 0 ≤ (wheelPID ℚ).spRampLimit := by
    norm_num [wheelPID, PID.setSPRamp]
  exact ((frequency_independent hsteady).1 rfl hlimit).1

end Runs

end SparxRobot.Drives
