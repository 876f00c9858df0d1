import SparxRobot.Sensors.Ticks

/-! Resetting an encoder. The count at the latest speed is not reset, so the first speed after
a reset is taken from it. -/
namespace SparxRobot.Sensors
open Machine

variable {R : Type*} [Field R]

/-- The clock does not go back. -/
def InOrder (times : List ℤ) : Prop := List.IsChain (· ≤ ·) times

/-- An encoder constructed at the time of the reset, with the same distances. -/
def fresh (d : EncoderData R) (now : ℤ) : EncoderData R :=
  (EncoderData.ofEncoder d.distPerTickForward now).setReverseDistancePerPulse d.distPerTickReverse

/-- After a reset the distance is the one of the ticks seen since, the speeds are the ones over
windows that open at the reset, and both are those of a fresh encoder. -/
structure StartsAfresh (d : EncoderData R) (now : ℤ) (readings : List Reading) : Prop where
  distance : ∀ count,
    (final encoderStep (encoderStep d (.reset now)).1 (calls readings)).getDistance count =
      forwardTicks 0 readings * d.distPerTickForward +
        reverseTicks 0 readings * d.distPerTickReverse
  speeds : outputs encoderStep (encoderStep d (.reset now)).1 (calls readings) =
    (windows ⟨now, 0⟩ readings).map
      (Option.map (speedOver d.distPerTickForward d.distPerTickReverse))
  sameDistance : ∀ count,
    (final encoderStep (encoderStep d (.reset now)).1 (calls readings)).getDistance count =
      (final encoderStep (fresh d now) (calls readings)).getDistance count
  sameSpeeds : outputs encoderStep (encoderStep d (.reset now)).1 (calls readings) =
    outputs encoderStep (fresh d now) (calls readings)

section Windows

/-- Where the first window opens is seen by the first window alone. -/
theorem windows_map_congr {β : Type*} {f : Reading × Reading → β} {opened opened' : Reading}
    (htime : opened.time = opened'.time) (hf : ∀ r, f (opened, r) = f (opened', r))
    (readings : List Reading) :
    (windows opened readings).map (Option.map f) =
      (windows opened' readings).map (Option.map f) := by
  induction readings with
  | nil => rfl
  | cons r rs ih =>
    by_cases hearly : r.time - opened.time < 18000
    · simp only [windows, hearly, ← htime, ↓reduceIte, List.map_cons, ih]
    · simp only [windows, hearly, ← htime, ↓reduceIte, List.map_cons, Option.map_some, hf]

variable {forward reverse : R}

theorem travelled_of_pos {ticks : ℤ} (h : 0 < ticks) :
    travelled forward reverse ticks = forward * ticks := by rw [travelled, if_pos h]

theorem travelled_of_nonpos {ticks : ℤ} (h : ticks ≤ 0) :
    travelled forward reverse ticks = reverse * ticks := by rw [travelled, if_neg h.not_gt]

variable [LinearOrder R] [IsStrictOrderedRing R]

/-- Ticks that are counted from elsewhere weigh the same exactly when ticks weigh nothing. -/
theorem travelled_shift_iff {shift : ℤ} :
    (∀ ticks, travelled forward reverse (ticks - shift) = travelled forward reverse ticks) ↔
      shift = 0 ∨ (forward = 0 ∧ reverse = 0) := by
  constructor
  · intro h
    rcases lt_trichotomy shift 0 with hneg | rfl | hpos
    · have hcast : (shift : R) ≠ 0 := by exact_mod_cast hneg.ne
      have hforward : forward = 0 := by
        have hzero := h 0
        rw [travelled_of_pos (by omega), travelled_of_nonpos le_rfl] at hzero
        simpa [hcast] using hzero
      have hreverse : reverse = 0 := by
        have hback := h (-1)
        rw [travelled_of_nonpos (by omega : (-1 : ℤ) ≤ 0), hforward] at hback
        rcases lt_or_ge 0 (-1 - shift) with hlast | hlast
        · rw [travelled_of_pos hlast] at hback
          simpa using hback.symm
        · obtain rfl : shift = -1 := by omega
          simpa [travelled] using hback.symm
      exact .inr ⟨hforward, hreverse⟩
    · exact .inl rfl
    · have hcast : (shift : R) ≠ 0 := by exact_mod_cast hpos.ne'
      have hreverse : reverse = 0 := by
        have hzero := h 0
        rw [travelled_of_nonpos (by omega), travelled_of_nonpos le_rfl] at hzero
        simpa [hcast] using hzero
      have hforward : forward = 0 := by
        have hone := h 1
        rw [travelled_of_nonpos (by omega), travelled_of_pos one_pos, hreverse] at hone
        simpa using hone.symm
      exact .inr ⟨hforward, hreverse⟩
  · rintro (rfl | ⟨rfl, rfl⟩) ticks
    · rw [sub_zero]
    · simp [travelled]

end Windows

section Runs

/-- No event makes a counter of an encoder. -/
theorem useCounter_run (d : EncoderData R) (past : List (EncoderEvent R)) :
    (final encoderStep d past).useCounter = d.useCounter := by
  have hstep : ∀ (t : EncoderData R) e, t.useCounter = d.useCounter → True →
      (encoderStep t e).1.useCounter = d.useCounter := by
    intro t e ht _
    cases e with
    | calculateSpeed r => exact (calculateSpeed_settings t r).2.2.trans ht
    | setReverseDistancePerPulse reverseDist => exact ht
    | reset now => exact ht
  exact (invariant_of_step hstep rfl fun _ _ => trivial).2

variable [LinearOrder R] [IsStrictOrderedRing R]

omit [LinearOrder R] [IsStrictOrderedRing R] in
/-- After a reset the first window still opens at the count of the latest speed. -/
theorem reset_speeds (d : EncoderData R) (now : ℤ) (readings : List Reading) :
    outputs encoderStep (encoderStep d (.reset now)).1 (calls readings) =
      (windows ⟨now, d.lastSpeedCount⟩ readings).map
        (Option.map (speedOver d.distPerTickForward d.distPerTickReverse)) :=
  run_speeds (encoderStep d (.reset now)).1 readings

/-- One late reading after a reset shows the count of the latest speed. -/
theorem shift_of_startsAfresh {d : EncoderData R}
    (h : ∀ r : Reading, 18000 ≤ r.time - d.lastTime → StartsAfresh d d.lastTime [r]) (ticks : ℤ) :
    travelled d.distPerTickForward d.distPerTickReverse (ticks - d.lastSpeedCount) =
      travelled d.distPerTickForward d.distPerTickReverse ticks := by
  let r : Reading := ⟨d.lastTime + 18000, ticks⟩
  have hlate : 18000 ≤ r.time - d.lastTime := by simp [r]
  have hspeeds := (h r hlate).speeds
  rw [reset_speeds] at hspeeds
  simp only [windows, hlate.not_gt, ↓reduceIte, List.map_cons, List.map_nil, Option.map_some,
    List.cons.injEq, Option.some.injEq, and_true] at hspeeds
  have hmul : ∀ count : ℤ, speedOver d.distPerTickForward d.distPerTickReverse
      (⟨d.lastTime, count⟩, r) * seconds (⟨d.lastTime, 0⟩, r) =
        travelled d.distPerTickForward d.distPerTickReverse (ticks - count) := by
    intro count
    exact speed_mul_seconds (w := (⟨d.lastTime, count⟩, r)) _ _ hlate
  have hzero := hmul 0
  rwa [← hspeeds, hmul, sub_zero] at hzero

omit [LinearOrder R] [IsStrictOrderedRing R] in
/-- When it does not show, the encoder starts afresh. -/
theorem startsAfresh_of_shift {d : EncoderData R} (hencoder : d.useCounter = false)
    (hshift : ∀ ticks, travelled d.distPerTickForward d.distPerTickReverse
      (ticks - d.lastSpeedCount) = travelled d.distPerTickForward d.distPerTickReverse ticks)
    (now : ℤ) (readings : List Reading) : StartsAfresh d now readings := by
  have hdistance : ∀ count, _ := fun count =>
    run_distance (encoderStep d (.reset now)).1 readings hencoder rfl rfl rfl count
  have hspeeds : outputs encoderStep (encoderStep d (.reset now)).1 (calls readings) =
      (windows ⟨now, 0⟩ readings).map
        (Option.map (speedOver d.distPerTickForward d.distPerTickReverse)) := by
    rw [reset_speeds]
    apply windows_map_congr
    · rfl
    · intro r
      rw [speedOver, speedOver, sub_zero]
      exact congrArg (· / seconds (⟨now, 0⟩, r)) (hshift r.count)
  refine ⟨hdistance, hspeeds, fun count => ?_, ?_⟩
  · rw [hdistance, run_distance (fresh d now) readings rfl rfl rfl rfl]
    rfl
  · rw [hspeeds, run_speeds (fresh d now) readings]
    rfl

/-- From wherever an encoder is reset, every later run starts afresh exactly when the latest
speed was taken at a count of 0, or ticks weigh nothing. -/
theorem starts_afresh_iff (dist : R) (start : ℤ) (past : List (EncoderEvent R)) :
    let d := final encoderStep (EncoderData.ofEncoder dist start) past
    (∀ now readings, InOrder (d.lastTime :: now :: readings.map Reading.time) →
      StartsAfresh d now readings) ↔
        d.lastSpeedCount = 0 ∨ (d.distPerTickForward = 0 ∧ d.distPerTickReverse = 0) := by
  intro d
  have hencoder : d.useCounter = false := useCounter_run _ past
  rw [← travelled_shift_iff]
  constructor
  · intro hfresh
    apply shift_of_startsAfresh
    intro r hlate
    have htime : d.lastTime ≤ r.time := by omega
    apply hfresh
    simp [InOrder, htime]
  · intro hshift now readings _
    exact startsAfresh_of_shift hencoder hshift now readings

/-- Five ticks forward before the first speed, which is taken when they are undone. -/
def rolledBack : List (EncoderEvent ℚ) := [.calculateSpeed ⟨10000, 5⟩, .calculateSpeed ⟨20000, 0⟩]

theorem rolledBack_afresh :
    StartsAfresh (final encoderStep (EncoderData.ofEncoder (0.032 : ℚ) 0) rolledBack) 30000
      [⟨50000, 5⟩] :=
  (starts_afresh_iff (0.032 : ℚ) 0 rolledBack).mpr (.inl rfl) 30000 [⟨50000, 5⟩]
    (by simp [InOrder, rolledBack, final, encoderStep, EncoderData.calculateSpeed,
      EncoderData.ofEncoder])

/-- Five ticks in the first 20 milliseconds, and a speed from them. -/
def fiveTicks : List (EncoderEvent ℚ) := [.calculateSpeed ⟨20000, 5⟩]

/-- An encoder that stands still after its reset is found running back. -/
theorem fiveTicks_run_back :
    ¬ ∀ (dist : ℚ) start past now readings,
      InOrder ((final encoderStep (EncoderData.ofEncoder dist start) past).lastTime :: now ::
        readings.map Reading.time) →
      StartsAfresh (final encoderStep (EncoderData.ofEncoder dist start) past) now readings := by
  intro hall
  have horder : InOrder
      ((final encoderStep (EncoderData.ofEncoder (0.032 : ℚ) 0) fiveTicks).lastTime :: 20000 ::
        [(⟨40000, 0⟩ : Reading)].map Reading.time) := by
    simp [InOrder, fiveTicks, final, encoderStep, EncoderData.calculateSpeed,
      EncoderData.ofEncoder]
  have hspeeds := (hall 0.032 0 fiveTicks 20000 [⟨40000, 0⟩] horder).speeds
  rw [run_speeds] at hspeeds
  norm_num [fiveTicks, final, encoderStep, EncoderData.calculateSpeed, EncoderData.reset,
    EncoderData.ofEncoder, windows, speedOver, travelled, seconds] at hspeeds

end Runs

end SparxRobot.Sensors
