import Mathlib.Algebra.Order.Ring.Rat
import Mathlib.Tactic.NormNum
import SparxRobot.Control.Deadband
import SparxRobot.Station.Delivery

/-! The joystick axes of `DriverStationControls`. Each object keeps a deadband and an
inversion factor for each axis; `getAxis` reads the deadband alone. -/
namespace SparxRobot.Controls
open Machine Control

abbrev maxAxes : ℕ := 14

def JOY_X_AXIS : ℕ := 0
def JOY_Y_AXIS : ℕ := 1
def JOY_Z_AXIS : ℕ := 2
def JOY_W_AXIS : ℕ := 3
def XBOX_LEFT_X : ℕ := 0
def XBOX_LEFT_Y : ℕ := 1
def XBOX_RIGHT_X : ℕ := 2
def XBOX_RIGHT_Y : ℕ := 3
def XBOX_L2 : ℕ := 4
def XBOX_R2 : ℕ := 5

def leftJoystickAxis : ℤ := 0
def rightJoystickAxis : ℤ := 4

def LEFT_JOY_X_AXIS : ℤ := leftJoystickAxis + JOY_X_AXIS
def LEFT_JOY_Y_AXIS : ℤ := leftJoystickAxis + JOY_Y_AXIS
def RIGHT_JOY_X_AXIS : ℤ := rightJoystickAxis + JOY_X_AXIS
def RIGHT_JOY_Y_AXIS : ℤ := rightJoystickAxis + JOY_Y_AXIS

/-- Joystick number and raw axis number of each axis. -/
def axes : Fin maxAxes → ℕ × ℕ :=
  ![(0, JOY_X_AXIS), (0, JOY_Y_AXIS), (0, JOY_Z_AXIS), (0, JOY_W_AXIS),
    (1, JOY_X_AXIS), (1, JOY_Y_AXIS), (1, JOY_Z_AXIS), (1, JOY_W_AXIS),
    (2, XBOX_LEFT_X), (2, XBOX_LEFT_Y), (2, XBOX_RIGHT_X), (2, XBOX_RIGHT_Y),
    (2, XBOX_L2), (2, XBOX_R2)]

section Table

variable {R : Type*} [Field R] [LinearOrder R]

/-- A row of `axesData`. -/
structure AxisData (R : Type*) [Field R] where
  deadband : R := 0.05
  invert : R := 1

abbrev AxesData (R : Type*) [Field R] := Fin maxAxes → AxisData R

/-- The table of a new object. -/
def axesData (R : Type*) [Field R] : AxesData R := fun _ => {}

/-- What the joysticks report on each of their axes. -/
abbrev Joysticks (R : Type*) := ℕ → ℕ → R

def getRawAxis (joysticks : Joysticks R) (axisNumber : ℤ) : R :=
  match rowOf maxAxes axisNumber with
  | some a => joysticks (axes a).1 (axes a).2
  | none => 0

def getAxis (joysticks : Joysticks R) (axisNumber : ℤ) (t : AxesData R) : R :=
  match rowOf maxAxes axisNumber with
  | some a =>
      let rawAxis := getRawAxis joysticks axisNumber
      let deadband := (t a).deadband
      if |rawAxis| > deadband then
        (rawAxis - if rawAxis > 0 then deadband else -deadband) / (1 - deadband)
      else 0
  | none => 0

/-- `getAxis` with its division observed. -/
def getAxisChecked (joysticks : Joysticks R) (axisNumber : ℤ) (t : AxesData R) : Option R :=
  match rowOf maxAxes axisNumber with
  | some a =>
      let rawAxis := getRawAxis joysticks axisNumber
      let deadband := (t a).deadband
      if |rawAxis| > deadband then
        if 1 - deadband = 0 then none
        else some ((rawAxis - if rawAxis > 0 then deadband else -deadband) / (1 - deadband))
      else some 0
  | none => some 0

def setAxisDeadband (axisNumber : ℤ) (deadband : R) (t : AxesData R) : AxesData R × Bool :=
  match rowOf maxAxes axisNumber with
  | some a =>
      if deadband ≥ 0 ∧ deadband ≤ 1 then
        (Function.update t a { t a with deadband := deadband }, true)
      else (t, false)
  | none => (t, false)

def setInverted (axisNumber : ℤ) (isInverted : Bool) (t : AxesData R) : AxesData R × Bool :=
  match rowOf maxAxes axisNumber with
  | some a => (Function.update t a { t a with invert := if isInverted then -1 else 1 }, true)
  | none => (t, false)

/-- The calls that set an axis. -/
inductive AxesCall (R : Type*) where
  | setAxisDeadband (axisNumber : ℤ) (deadband : R)
  | setInverted (axisNumber : ℤ) (isInverted : Bool)

def AxesCall.axisNumber : AxesCall R → ℤ
  | .setAxisDeadband axisNumber _ => axisNumber
  | .setInverted axisNumber _ => axisNumber

/-- The call names an axis, and if it sets a deadband one from 0 to 1. -/
def AxesCall.Admitted : AxesCall R → Prop
  | .setAxisDeadband axisNumber deadband =>
      (0 ≤ axisNumber ∧ axisNumber < maxAxes) ∧ 0 ≤ deadband ∧ deadband ≤ 1
  | .setInverted axisNumber _ => 0 ≤ axisNumber ∧ axisNumber < maxAxes

/-- The deadband a call sets for an axis, if it may. -/
def AxesCall.deadbandFor (axisNumber : ℤ) : AxesCall R → Option R
  | .setAxisDeadband axisNumber' deadband =>
      if axisNumber' = axisNumber ∧ 0 ≤ deadband ∧ deadband ≤ 1 then some deadband else none
  | .setInverted _ _ => none

/-- The one that was set last, or the one of a new object. -/
def deadbandOf (axisNumber : ℤ) (calls : List (AxesCall R)) : R :=
  (lastWrite (AxesCall.deadbandFor axisNumber) calls).getD 0.05

/-- The output is what the call returns. -/
def axesStep : Step (AxesData R) (AxesCall R) Bool
  | t, .setAxisDeadband axisNumber deadband => setAxisDeadband axisNumber deadband t
  | t, .setInverted axisNumber isInverted => setInverted axisNumber isInverted t

/-- The setter's range, kept by every row. -/
def WithinRange (t : AxesData R) : Prop := ∀ a, 0 ≤ (t a).deadband ∧ (t a).deadband ≤ 1

/-- A call that is refused changes nothing, and one that is not changes its own axis. -/
def Contained (t : AxesData R) (c : AxesCall R) : Prop :=
  ((axesStep t c).2 = false → (axesStep t c).1 = t) ∧
    ∀ a, rowOf maxAxes c.axisNumber ≠ some a → (axesStep t c).1 a = t a

/-- The axis, whatever raw value it has, is rescaled around a deadband, for all that the
joysticks report in their range. -/
structure SoundAxis (t : AxesData R) (axisNumber : ℤ) (deadband : R) : Prop where
  raw : ∀ x : R, ∃ j : Joysticks R, getRawAxis j axisNumber = x
  divides : ∀ j, |getRawAxis j axisNumber| ≤ 1 →
    getAxisChecked j axisNumber t = some (getAxis j axisNumber t)
  zero : ∀ j, |getRawAxis j axisNumber| ≤ 1 →
    (getAxis j axisNumber t = 0 ↔ |getRawAxis j axisNumber| ≤ deadband)
  range : ∀ j, |getRawAxis j axisNumber| ≤ 1 → |getAxis j axisNumber t| ≤ 1
  odd : ∀ j k, |getRawAxis j axisNumber| ≤ 1 →
    getRawAxis k axisNumber = -getRawAxis j axisNumber →
      getAxis k axisNumber t = -getAxis j axisNumber t
  mono : ∀ j k, |getRawAxis j axisNumber| ≤ 1 → |getRawAxis k axisNumber| ≤ 1 →
    getRawAxis j axisNumber ≤ getRawAxis k axisNumber →
      getAxis j axisNumber t ≤ getAxis k axisNumber t
  ends : deadband < 1 → ∀ j,
    (getRawAxis j axisNumber = 1 → getAxis j axisNumber t = 1) ∧
      (getRawAxis j axisNumber = -1 → getAxis j axisNumber t = -1)

/-- The state the object is in after a call of `setInverted` for the axis, and the calls
before it and after it. -/
def afterInverting (before after : List (AxesCall R)) (axisNumber : ℤ) (isInverted : Bool) :
    AxesData R :=
  final axesStep (final axesStep (axesData R) before) (.setInverted axisNumber isInverted :: after)

/-- The object as it is without that call. -/
def withoutInverting (before after : List (AxesCall R)) : AxesData R :=
  final axesStep (final axesStep (axesData R) before) after

/-- Inverting the axis negates it, and leaves every other axis as it is without the call. -/
def InversionTakesEffect (before after : List (AxesCall R)) (j : Joysticks R) (axisNumber : ℤ) :
    Prop :=
  getAxis j axisNumber (afterInverting before after axisNumber true) =
      -getAxis j axisNumber (afterInverting before after axisNumber false) ∧
    ∀ other, other ≠ axisNumber →
      getAxis j other (afterInverting before after axisNumber true) =
        getAxis j other (withoutInverting before after)

end Table

section Calls

variable {R : Type*} [Field R] [LinearOrder R] {t : AxesData R} {a : Fin maxAxes} {axisNumber : ℤ}

/-- An axis reads as its raw value rescaled around its deadband. -/
theorem getAxis_eq (ha : rowOf maxAxes axisNumber = some a) (j : Joysticks R) :
    getAxis j axisNumber t = rescale (t a).deadband (getRawAxis j axisNumber) := by
  simp only [getAxis, ha, rescale]

theorem getAxisChecked_eq (ha : rowOf maxAxes axisNumber = some a) (j : Joysticks R) :
    getAxisChecked j axisNumber t =
      if |getRawAxis j axisNumber| > (t a).deadband ∧ 1 - (t a).deadband = 0 then none
      else some (getAxis j axisNumber t) := by
  simp only [getAxisChecked, getAxis, ha]
  by_cases hout : |getRawAxis j axisNumber| > (t a).deadband
  · simp only [hout, true_and, if_true]
  · simp only [hout, false_and, if_false]

/-- What a call does: it is refused, or writes one entry of its own row. -/
theorem axesStep_cases (t : AxesData R) (c : AxesCall R) :
    axesStep t c = (t, false) ∨
      ∃ a, rowOf maxAxes c.axisNumber = some a ∧
        ((∃ deadband, 0 ≤ deadband ∧ deadband ≤ 1 ∧
            axesStep t c = (Function.update t a { t a with deadband := deadband }, true)) ∨
          ∃ invert, axesStep t c = (Function.update t a { t a with invert := invert }, true)) := by
  cases c with
  | setAxisDeadband axisNumber deadband =>
    simp only [axesStep, setAxisDeadband, AxesCall.axisNumber]
    cases rowOf maxAxes axisNumber with
    | none => exact .inl rfl
    | some a =>
      by_cases hd : deadband ≥ 0 ∧ deadband ≤ 1
      · exact .inr ⟨a, rfl, .inl ⟨deadband, hd.1, hd.2, if_pos hd⟩⟩
      · exact .inl (if_neg hd)
  | setInverted axisNumber isInverted =>
    simp only [axesStep, setInverted, AxesCall.axisNumber]
    cases rowOf maxAxes axisNumber with
    | none => exact .inl rfl
    | some a => exact .inr ⟨a, rfl, .inr ⟨_, rfl⟩⟩

/-- A call that writes its own row is contained. -/
theorem contained_of_update {c : AxesCall R} {row : AxisData R}
    (ha : rowOf maxAxes c.axisNumber = some a)
    (h : axesStep t c = (Function.update t a row, true)) : Contained t c := by
  unfold Contained
  rw [h]
  refine ⟨fun hrefused => Bool.noConfusion hrefused, fun b hb => ?_⟩
  have hba : b ≠ a := fun hba => hb (hba ▸ ha)
  exact Function.update_of_ne hba row t

theorem axesStep_contained (t : AxesData R) (c : AxesCall R) : Contained t c := by
  rcases axesStep_cases t c with h | ⟨a, ha, ⟨d, -, -, h⟩ | ⟨i, h⟩⟩
  · simp [Contained, h]
  · exact contained_of_update ha h
  · exact contained_of_update ha h

omit [LinearOrder R] in
theorem setInverted_deadband (axisNumber : ℤ) (isInverted : Bool) (t : AxesData R)
    (a : Fin maxAxes) : ((setInverted axisNumber isInverted t).1 a).deadband = (t a).deadband := by
  unfold setInverted
  cases rowOf maxAxes axisNumber with
  | none => rfl
  | some b =>
    rcases eq_or_ne a b with rfl | hab
    · simp
    · simp [Function.update_of_ne hab]

/-- The deadband of an axis is the one that was set last for it. -/
theorem deadband_register (ha : rowOf maxAxes axisNumber = some a) :
    Register axesStep (fun t : AxesData R => (t a).deadband) fun m =>
      m.input.deadbandFor axisNumber := by
  intro t c
  simp only [moment_input]
  cases c with
  | setInverted axisNumber' isInverted =>
    exact setInverted_deadband axisNumber' isInverted t a
  | setAxisDeadband axisNumber' deadband =>
    simp only [axesStep, setAxisDeadband, AxesCall.deadbandFor]
    rcases eq_or_ne axisNumber' axisNumber with rfl | hother
    · by_cases hd : deadband ≥ 0 ∧ deadband ≤ 1
      · rw [ha, if_pos ⟨rfl, hd⟩]
        simp [hd]
      · have hnot : ¬ (axisNumber' = axisNumber' ∧ 0 ≤ deadband ∧ deadband ≤ 1) := fun h => hd h.2
        rw [ha, if_neg hnot]
        simp [hd]
    · rw [if_neg fun h => hother h.1]
      cases hb : rowOf maxAxes axisNumber' with
      | none => rfl
      | some b =>
        have hab : a ≠ b := by
          rintro rfl
          exact hother ((rowOf_eq_some hb).trans (rowOf_eq_some ha).symm)
        by_cases hd : deadband ≥ 0 ∧ deadband ≤ 1 <;> simp [hd, Function.update_of_ne hab]

theorem rowOf_isSome {n : ℕ} {number : ℤ} :
    (rowOf n number).isSome = true ↔ 0 ≤ number ∧ number < n := by
  unfold rowOf
  split <;> simp_all

/-- A call is accepted exactly when it is admitted. -/
theorem axesStep_accepts_iff (t : AxesData R) (c : AxesCall R) :
    (axesStep t c).2 = true ↔ c.Admitted := by
  cases c with
  | setAxisDeadband axisNumber deadband =>
    simp only [axesStep, setAxisDeadband, AxesCall.Admitted, ← rowOf_isSome]
    cases rowOf maxAxes axisNumber with
    | none => simp
    | some a =>
      by_cases hd : deadband ≥ 0 ∧ deadband ≤ 1
      · simp only [if_pos hd]
        exact iff_of_true trivial ⟨rfl, hd⟩
      · simp only [if_neg hd]
        exact iff_of_false Bool.false_ne_true fun h => hd h.2
  | setInverted axisNumber isInverted =>
    simp only [axesStep, setInverted, AxesCall.Admitted, ← rowOf_isSome]
    cases rowOf maxAxes axisNumber <;> simp

theorem WithinRange.update (ht : WithinRange t) {row : AxisData R}
    (hrow : 0 ≤ row.deadband ∧ row.deadband ≤ 1) : WithinRange (Function.update t a row) := by
  intro b
  rcases eq_or_ne b a with rfl | hba
  · rwa [Function.update_self]
  · rw [Function.update_of_ne hba]
    exact ht b

theorem axesStep_withinRange (c : AxesCall R) (ht : WithinRange t) :
    WithinRange (axesStep t c).1 := by
  rcases axesStep_cases t c with h | ⟨a, -, ⟨d, h0, h1, h⟩ | ⟨i, h⟩⟩
  · rw [h]
    exact ht
  · rw [h]
    exact ht.update ⟨h0, h1⟩
  · rw [h]
    exact ht.update (ht a)

end Calls

section Sound

variable {R : Type*} [Field R] [LinearOrder R] [IsStrictOrderedRing R] {t : AxesData R}
  {a : Fin maxAxes} {axisNumber : ℤ}

theorem axesData_withinRange : WithinRange (axesData R) := by
  intro a
  constructor <;> norm_num [axesData]

omit [IsStrictOrderedRing R] in
theorem final_withinRange (calls : List (AxesCall R)) (ht : WithinRange t) :
    WithinRange (final axesStep t calls) := by
  have hstep : ∀ t c, WithinRange t → True → WithinRange (axesStep (R := R) t c).1 :=
    fun _ c ht _ => axesStep_withinRange c ht
  exact (invariant_of_step hstep ht fun _ _ => trivial).2

/-- A deadband the setter admits rescales its axis soundly. -/
theorem soundAxis_of_withinRange (ha : rowOf maxAxes axisNumber = some a) (ht : WithinRange t) :
    SoundAxis t axisNumber (t a).deadband := by
  obtain ⟨h0, h1⟩ := ht a
  constructor
  · intro x
    exact ⟨fun _ _ => x, by simp only [getRawAxis, ha]⟩
  · intro j hj
    rw [getAxisChecked_eq ha, if_neg]
    rintro ⟨hout, hzero⟩
    linarith
  · intro j hj
    rw [getAxis_eq ha]
    exact rescale_eq_zero_iff h0 hj
  · intro j hj
    rw [getAxis_eq ha]
    exact abs_rescale_le_one h0 h1 hj
  · intro j k hj hk
    rw [getAxis_eq ha, getAxis_eq ha, hk]
    exact rescale_odd h0 _
  · intro j k hj hk hle
    rw [getAxis_eq ha, getAxis_eq ha]
    exact rescale_mono h0 hj hk hle
  · intro hlt j
    rw [getAxis_eq ha]
    refine ⟨fun hone => ?_, fun hone => ?_⟩
    · rw [hone, rescale_one h0 hlt]
    · rw [hone, rescale_odd h0, rescale_one h0 hlt]

end Sound

section Runs

/-- After any calls every axis is rescaled soundly around the deadband that was set last for
it, and the next call is accepted if it is admitted, and changes its own axis at most. -/
theorem getAxis_sound (calls : List (AxesCall ℚ)) :
    (∀ axisNumber : ℤ, 0 ≤ axisNumber → axisNumber < maxAxes →
      SoundAxis (final axesStep (axesData ℚ) calls) axisNumber (deadbandOf axisNumber calls)) ∧
      ∀ c, ((axesStep (final axesStep (axesData ℚ) calls) c).2 = true ↔ c.Admitted) ∧
        Contained (final axesStep (axesData ℚ) calls) c := by
  refine ⟨fun axisNumber hlow hhigh => ?_,
    fun c => ⟨axesStep_accepts_iff _ c, axesStep_contained _ c⟩⟩
  obtain ⟨a, ha⟩ := Option.isSome_iff_exists.mp (rowOf_isSome.mpr ⟨hlow, hhigh⟩)
  have hdeadband : (final axesStep (axesData ℚ) calls a).deadband = deadbandOf axisNumber calls :=
    (deadband_register ha).final (axesData ℚ) calls
  rw [← hdeadband]
  exact soundAxis_of_withinRange ha (final_withinRange calls axesData_withinRange)

/-- The first axis set to a half and then, in vain, to two; the second one set to one. -/
def deadbandCalls : List (AxesCall ℚ) :=
  [.setAxisDeadband 0 0.5, .setAxisDeadband 0 2, .setAxisDeadband 1 1]

theorem deadbandCalls_sound :
    SoundAxis (final axesStep (axesData ℚ) deadbandCalls) 0 0.5 ∧
      SoundAxis (final axesStep (axesData ℚ) deadbandCalls) 1 1 ∧
      SoundAxis (final axesStep (axesData ℚ) deadbandCalls) 2 0.05 := by
  have hsound := (getAxis_sound deadbandCalls).1
  have hzero : deadbandOf 0 deadbandCalls = 0.5 := by decide +kernel
  have hone : deadbandOf 1 deadbandCalls = 1 := by decide +kernel
  have htwo : deadbandOf 2 deadbandCalls = 0.05 := by decide +kernel
  exact ⟨hzero ▸ hsound 0 (by decide) (by decide), hone ▸ hsound 1 (by decide) (by decide),
    htwo ▸ hsound 2 (by decide) (by decide)⟩

end Runs

section Inversion

variable {R : Type*} [Field R] [LinearOrder R] {t u : AxesData R}

/-- `getAxis` sees nothing of the table but the deadbands. -/
theorem getAxis_congr (h : ∀ a, (t a).deadband = (u a).deadband) (j : Joysticks R)
    (axisNumber : ℤ) : getAxis j axisNumber t = getAxis j axisNumber u := by
  unfold getAxis
  cases rowOf maxAxes axisNumber with
  | none => rfl
  | some a => simp only [h a]

/-- Tables with the same deadbands have the same ones after any call. -/
theorem axesStep_deadband_congr (c : AxesCall R) (h : ∀ a, (t a).deadband = (u a).deadband)
    (a : Fin maxAxes) : ((axesStep t c).1 a).deadband = ((axesStep u c).1 a).deadband := by
  cases c with
  | setInverted axisNumber isInverted =>
    simp only [axesStep, setInverted_deadband, h a]
  | setAxisDeadband axisNumber deadband =>
    simp only [axesStep, setAxisDeadband]
    cases rowOf maxAxes axisNumber with
    | none => exact h a
    | some b =>
      by_cases hd : deadband ≥ 0 ∧ deadband ≤ 1
      · simp only [if_pos hd]
        rcases eq_or_ne a b with rfl | hab
        · simp
        · simpa [Function.update_of_ne hab] using h a
      · simpa only [if_neg hd] using h a

theorem final_deadband_congr (calls : List (AxesCall R)) :
    ∀ {t u : AxesData R}, (∀ a, (t a).deadband = (u a).deadband) → ∀ a,
      (final axesStep t calls a).deadband = (final axesStep u calls a).deadband := by
  induction calls with
  | nil => exact fun h => h
  | cons c calls ih => exact fun h => ih (axesStep_deadband_congr c h)

/-- The call of `setInverted` leaves no trace in what `getAxis` answers. -/
theorem getAxis_afterInverting (before after : List (AxesCall R)) (j : Joysticks R)
    (axisNumber other : ℤ) (isInverted : Bool) :
    getAxis j other (afterInverting before after axisNumber isInverted) =
      getAxis j other (withoutInverting before after) :=
  getAxis_congr (final_deadband_congr after (setInverted_deadband axisNumber isInverted _)) j other

end Inversion

section InversionRuns

/-- Whatever is called before and after it, inverting an axis takes effect exactly when the
stick rests in the deadband of the axis. -/
theorem setInverted_takes_effect_iff (before after : List (AxesCall ℚ)) (j : Joysticks ℚ)
    {axisNumber : ℤ} {a : Fin maxAxes} (ha : rowOf maxAxes axisNumber = some a)
    (hj : |getRawAxis j axisNumber| ≤ 1) :
    InversionTakesEffect before after j axisNumber ↔
      |getRawAxis j axisNumber| ≤ (withoutInverting before after a).deadband := by
  have hrange : WithinRange (withoutInverting before after) :=
    final_withinRange after (final_withinRange before axesData_withinRange)
  rw [← (soundAxis_of_withinRange ha hrange).zero j hj]
  simp only [InversionTakesEffect, getAxis_afterInverting, implies_true, and_true]
  exact self_eq_neg

/-- The stick of the first axis pushed all the way. -/
def fullStick : Joysticks ℚ := fun _ _ => 1

theorem setInverted_takes_effect_iff_fullStick :
    InversionTakesEffect [] [] fullStick 0 ↔
      |getRawAxis fullStick 0| ≤ (withoutInverting [] [] 0 : AxisData ℚ).deadband :=
  setInverted_takes_effect_iff [] [] fullStick (show rowOf maxAxes 0 = some 0 from rfl)
    (by decide +kernel)

/-- An inverted axis still reads one at full stick. -/
theorem fullStick_not_inverted :
    ¬ ∀ (before after : List (AxesCall ℚ)) (j : Joysticks ℚ) (axisNumber : ℤ) (a : Fin maxAxes),
      rowOf maxAxes axisNumber = some a → |getRawAxis j axisNumber| ≤ 1 →
      (∀ b, AxesCall.setInverted axisNumber b ∉ after) →
        InversionTakesEffect before after j axisNumber := by
  intro hall
  obtain ⟨hneg, -⟩ := hall [] [] fullStick 0 0 rfl (by decide +kernel) (by simp)
  exact absurd hneg (by decide +kernel)

end InversionRuns

end SparxRobot.Controls
