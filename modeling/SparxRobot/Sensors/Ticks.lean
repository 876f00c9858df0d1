import SparxRobot.Sensors.EncoderData

/-! No tick of an encoder is lost or counted twice. -/
namespace SparxRobot.Sensors
open Machine

section Counts

/-- The count the hardware shows last. -/
def latestCount (count : ℤ) (readings : List Reading) : ℤ :=
  (readings.getLast?.map Reading.count).getD count

/-- The ticks by which the count has risen between readings, and those by which it has fallen. -/
def forwardTicks : ℤ → List Reading → ℤ
  | _, [] => 0
  | count, r :: rs => max 0 (r.count - count) + forwardTicks r.count rs

def reverseTicks : ℤ → List Reading → ℤ
  | _, [] => 0
  | count, r :: rs => min 0 (r.count - count) + reverseTicks r.count rs

theorem latestCount_cons (count : ℤ) (r : Reading) (rs : List Reading) :
    latestCount count (r :: rs) = latestCount r.count rs := by
  rw [latestCount, List.getLast?_cons]
  cases hlast : rs.getLast? <;> simp [latestCount, hlast]

theorem forwardTicks_nonneg (count : ℤ) (readings : List Reading) :
    0 ≤ forwardTicks count readings := by
  induction readings generalizing count with
  | nil => exact le_rfl
  | cons r rs ih => exact add_nonneg (le_max_left _ _) (ih _)

theorem reverseTicks_nonpos (count : ℤ) (readings : List Reading) :
    reverseTicks count readings ≤ 0 := by
  induction readings generalizing count with
  | nil => exact le_rfl
  | cons r rs ih => exact add_nonpos (min_le_left _ _) (ih _)

theorem ticks_add (count : ℤ) (readings : List Reading) :
    forwardTicks count readings + reverseTicks count readings =
      latestCount count readings - count := by
  induction readings generalizing count with
  | nil => simp [forwardTicks, reverseTicks, latestCount]
  | cons r rs ih =>
    have htail := ih r.count
    have hsplit := max_add_min 0 (r.count - count)
    rw [forwardTicks, reverseTicks, latestCount_cons]
    linarith

/-- The raw counts are `int`s, so a call adds less than 2 ^ 32 to either count. -/
theorem ticks_bounded {count : ℤ} {readings : List Reading}
    (h : ∀ c ∈ count :: readings.map Reading.count, -2 ^ 31 ≤ c ∧ c < 2 ^ 31) :
    forwardTicks count readings ≤ readings.length * 2 ^ 32 ∧
      -(readings.length * 2 ^ 32) ≤ reverseTicks count readings := by
  induction readings generalizing count with
  | nil => simp [forwardTicks, reverseTicks]
  | cons r rs ih =>
    obtain ⟨hforward, hreverse⟩ := ih fun c hc => h c (List.mem_cons_of_mem _ hc)
    have hcount := h count List.mem_cons_self
    have hr := h r.count (by simp)
    simp only [forwardTicks, reverseTicks, List.length_cons]
    push_cast
    constructor <;> omega

end Counts

variable {R : Type*} [Field R]

section Calls

variable (d : EncoderData R) (r : Reading)

/-- What no call changes. -/
theorem calculateSpeed_settings :
    (d.calculateSpeed r).distPerTickForward = d.distPerTickForward ∧
      (d.calculateSpeed r).distPerTickReverse = d.distPerTickReverse ∧
      (d.calculateSpeed r).useCounter = d.useCounter := by
  unfold EncoderData.calculateSpeed
  extract_lets
  split <;> exact ⟨rfl, rfl, rfl⟩

/-- Every call counts the ticks since the last one. -/
theorem calculateSpeed_counts :
    (d.calculateSpeed r).lastEncoderCount = r.count ∧
      (d.calculateSpeed r).forwardCount =
        d.forwardCount + max 0 (r.count - d.lastEncoderCount) ∧
      (d.calculateSpeed r).reverseCount =
        d.reverseCount + min 0 (r.count - d.lastEncoderCount) := by
  have hforward : (d.calculateSpeed r).forwardCount = if r.count - d.lastEncoderCount ≥ 0 then
      d.forwardCount + (r.count - d.lastEncoderCount) else d.forwardCount := by
    unfold EncoderData.calculateSpeed
    extract_lets
    split <;> rfl
  have hreverse : (d.calculateSpeed r).reverseCount = if r.count - d.lastEncoderCount ≥ 0 then
      d.reverseCount else d.reverseCount + (r.count - d.lastEncoderCount) := by
    unfold EncoderData.calculateSpeed
    extract_lets
    split <;> rfl
  refine ⟨?_, ?_, ?_⟩
  · unfold EncoderData.calculateSpeed
    extract_lets
    split <;> rfl
  · rw [hforward]
    split_ifs <;> omega
  · rw [hreverse]
    split_ifs <;> omega

/-- A call opens a new window when it closes the last one. -/
theorem calculateSpeed_window :
    let opened : Reading := ⟨d.lastTime, d.lastSpeedCount⟩
    (⟨(d.calculateSpeed r).lastTime, (d.calculateSpeed r).lastSpeedCount⟩ : Reading) =
        (if r.time - d.lastTime < 18000 then opened else r) ∧
      (¬ r.time - d.lastTime < 18000 → (d.calculateSpeed r).speed =
        speedOver d.distPerTickForward d.distPerTickReverse (opened, r)) := by
  unfold EncoderData.calculateSpeed
  extract_lets
  split
  · next hearly => exact ⟨rfl, fun hlate => absurd hearly hlate⟩
  · exact ⟨rfl, fun _ => rfl⟩

end Calls

section Runs

variable (d : EncoderData R) (readings : List Reading)

/-- The counts at the end of a run are the ticks of its readings. -/
theorem run_counts :
    let t := final encoderStep d (calls readings)
    t.lastEncoderCount = latestCount d.lastEncoderCount readings ∧
      t.forwardCount = d.forwardCount + forwardTicks d.lastEncoderCount readings ∧
      t.reverseCount = d.reverseCount + reverseTicks d.lastEncoderCount readings := by
  induction readings generalizing d with
  | nil => simp [calls, final, latestCount, forwardTicks, reverseTicks]
  | cons r rs ih =>
    obtain ⟨hlast, hforward, hreverse⟩ := calculateSpeed_counts d r
    obtain ⟨ihlast, ihforward, ihreverse⟩ := ih (d.calculateSpeed r)
    rw [hlast] at ihlast ihforward ihreverse
    rw [hforward] at ihforward
    rw [hreverse] at ihreverse
    exact ⟨ihlast.trans (latestCount_cons _ r rs).symm, ihforward.trans (add_assoc _ _ _),
      ihreverse.trans (add_assoc _ _ _)⟩

theorem run_settings :
    let t := final encoderStep d (calls readings)
    t.distPerTickForward = d.distPerTickForward ∧ t.distPerTickReverse = d.distPerTickReverse ∧
      t.useCounter = d.useCounter := by
  induction readings generalizing d with
  | nil => exact ⟨rfl, rfl, rfl⟩
  | cons r rs ih =>
    obtain ⟨hforward, hreverse, hcounter⟩ := calculateSpeed_settings d r
    obtain ⟨ihforward, ihreverse, ihcounter⟩ := ih (d.calculateSpeed r)
    exact ⟨ihforward.trans hforward, ihreverse.trans hreverse, ihcounter.trans hcounter⟩

/-- The speeds of a run are the speeds over its windows. -/
theorem run_speeds :
    outputs encoderStep d (calls readings) =
      (windows ⟨d.lastTime, d.lastSpeedCount⟩ readings).map
        (Option.map (speedOver d.distPerTickForward d.distPerTickReverse)) := by
  induction readings generalizing d with
  | nil => rfl
  | cons r rs ih =>
    obtain ⟨hopened, hspeed⟩ := calculateSpeed_window d r
    obtain ⟨hforward, hreverse, -⟩ := calculateSpeed_settings d r
    have htail := ih (d.calculateSpeed r)
    rw [hopened, hforward, hreverse] at htail
    have hcons : outputs encoderStep d (calls (r :: rs)) =
        (if r.time - d.lastTime < 18000 then none else some (d.calculateSpeed r).speed) ::
          outputs encoderStep (d.calculateSpeed r) (calls rs) := rfl
    rw [hcons, htail]
    by_cases hearly : r.time - d.lastTime < 18000
    · simp only [windows, hearly, ↓reduceIte, List.map_cons, Option.map_none]
    · simp only [windows, hearly, ↓reduceIte, List.map_cons, Option.map_some, hspeed hearly]

theorem run_opened :
    let t := final encoderStep d (calls readings)
    (⟨t.lastTime, t.lastSpeedCount⟩ : Reading) =
      openedLast ⟨d.lastTime, d.lastSpeedCount⟩ readings := by
  induction readings generalizing d with
  | nil => rfl
  | cons r rs ih =>
    have htail := ih (d.calculateSpeed r)
    rw [(calculateSpeed_window d r).1] at htail
    refine htail.trans ?_
    by_cases hearly : r.time - d.lastTime < 18000 <;> simp only [openedLast, hearly, ↓reduceIte]

/-- The distance of a run from reset counts is the one of the ticks of its readings. -/
theorem run_distance (hcounter : d.useCounter = false) (hlast : d.lastEncoderCount = 0)
    (hforward : d.forwardCount = 0) (hreverse : d.reverseCount = 0) (count : ℤ) :
    (final encoderStep d (calls readings)).getDistance count =
      forwardTicks 0 readings * d.distPerTickForward +
        reverseTicks 0 readings * d.distPerTickReverse := by
  obtain ⟨-, hforwardCount, hreverseCount⟩ := run_counts d readings
  obtain ⟨hdistForward, hdistReverse, hsame⟩ := run_settings d readings
  rw [hforward, zero_add, hlast] at hforwardCount
  rw [hreverse, zero_add, hlast] at hreverseCount
  rw [EncoderData.getDistance, hsame, hcounter, hforwardCount, hreverseCount, hdistForward,
    hdistReverse]
  rfl

/-- For more than a year of calls every 20 milliseconds the counts stay within a `long`. -/
theorem counts_are_longs (dist : R) (start : ℤ) (hlength : readings.length < 2 ^ 31)
    (hcounts : ∀ r ∈ readings, -2 ^ 31 ≤ r.count ∧ r.count < 2 ^ 31) :
    let t := final encoderStep (EncoderData.ofEncoder dist start) (calls readings)
    t.forwardCount < 2 ^ 63 ∧ -2 ^ 63 ≤ t.reverseCount := by
  obtain ⟨-, hforward, hreverse⟩ := run_counts (EncoderData.ofEncoder dist start) readings
  have hbounds : ∀ c ∈ 0 :: readings.map Reading.count, -2 ^ 31 ≤ c ∧ c < 2 ^ 31 := by
    simpa using hcounts
  obtain ⟨hmax, hmin⟩ := ticks_bounded hbounds
  simp only [EncoderData.ofEncoder, zero_add] at hforward hreverse
  simp only [EncoderData.ofEncoder]
  omega

end Runs

section Windows

theorem windows_long {opened : Reading} {readings : List Reading} {w : Reading × Reading}
    (hw : w ∈ (windows opened readings).reduceOption) : 18000 ≤ w.2.time - w.1.time := by
  induction readings generalizing opened with
  | nil => simp [windows] at hw
  | cons r rs ih =>
    by_cases hearly : r.time - opened.time < 18000
    · simp only [windows, hearly, ↓reduceIte, List.reduceOption_cons_of_none] at hw
      exact ih hw
    · simp only [windows, hearly, ↓reduceIte, List.reduceOption_cons_of_some,
        List.mem_cons] at hw
      rcases hw with rfl | hw
      · exact not_lt.mp hearly
      · exact ih hw

/-- With one distance for both directions the windows add up to the ticks they tile. -/
theorem Tile.sum_travelled (dist : R) {opened closed : Reading} {ws : List (Reading × Reading)}
    (h : Tile opened closed ws) :
    (ws.map fun w => travelled dist dist (w.2.count - w.1.count)).sum =
      dist * ((closed.count - opened.count : ℤ) : R) := by
  induction ws generalizing opened with
  | nil =>
    obtain rfl : opened = closed := h
    simp
  | cons w ws ih =>
    obtain ⟨rfl, htail⟩ := h
    rw [List.map_cons, List.sum_cons, ih htail, travelled, ite_self]
    push_cast
    ring

variable [LinearOrder R] [IsStrictOrderedRing R]

theorem speed_mul_seconds (forward reverse : R) {w : Reading × Reading}
    (hw : 18000 ≤ w.2.time - w.1.time) : speedOver forward reverse w * seconds w =
      travelled forward reverse (w.2.count - w.1.count) := by
  have hpos : (0 : R) < seconds w := by
    have htime : (0 : R) < ((w.2.time - w.1.time : ℤ) : R) := by
      exact_mod_cast lt_of_lt_of_le (by norm_num) hw
    exact div_pos htime (by norm_num)
  exact div_mul_cancel₀ _ hpos.ne'

/-- The speeds over the windows of a run, each for the length of its window, add up to the ticks
the windows tile. -/
theorem sum_speed_mul_seconds (dist : R) (opened : Reading) (readings : List Reading) :
    let ws := (windows opened readings).reduceOption
    (List.zipWith (fun speed w => speed * seconds w) (ws.map (speedOver dist dist)) ws).sum =
      dist * (((openedLast opened readings).count - opened.count : ℤ) : R) := by
  intro ws
  have hcovered : List.zipWith (fun speed w => speed * seconds w) (ws.map (speedOver dist dist))
      ws = ws.map fun w => travelled dist dist (w.2.count - w.1.count) := by
    rw [List.zipWith_map_left, List.zipWith_self]
    exact List.map_congr_left fun w hw => speed_mul_seconds _ _ (windows_long hw)
  rw [hcovered, (windows_tile opened readings).sum_travelled]

/-- Over every run from construction, the counts are the ticks the hardware has shown, each
once; the speeds are taken over windows that tile the run; and the distance is the one of the
ticks in either direction, which the speeds add up to when both count the same. -/
theorem no_tick_lost (dist reverseDist : R) (start : ℤ) (readings : List Reading) :
    let d := (EncoderData.ofEncoder dist start).setReverseDistancePerPulse reverseDist
    let t := final encoderStep d (calls readings)
    let ws := (windows ⟨start, 0⟩ readings).reduceOption
    let speeds := (outputs encoderStep d (calls readings)).reduceOption
    (0 ≤ t.forwardCount ∧ t.reverseCount ≤ 0 ∧
      t.forwardCount + t.reverseCount = latestCount 0 readings) ∧
    (Tile ⟨start, 0⟩ ⟨t.lastTime, t.lastSpeedCount⟩ ws ∧
      speeds = ws.map (speedOver dist reverseDist)) ∧
    (reverseDist = dist →
      (List.zipWith (fun speed w => speed * seconds w) speeds ws).sum +
        dist * ((latestCount 0 readings - t.lastSpeedCount : ℤ) : R) =
          t.getDistance (latestCount 0 readings)) ∧
    t.getDistance (latestCount 0 readings) =
      forwardTicks 0 readings * dist + reverseTicks 0 readings * reverseDist := by
  intro d t ws speeds
  obtain ⟨-, hforward, hreverse⟩ := run_counts d readings
  have hforward : t.forwardCount = forwardTicks 0 readings := hforward.trans (zero_add _)
  have hreverse : t.reverseCount = reverseTicks 0 readings := hreverse.trans (zero_add _)
  have hadd := ticks_add 0 readings
  have hopened : (⟨t.lastTime, t.lastSpeedCount⟩ : Reading) = openedLast ⟨start, 0⟩ readings :=
    run_opened d readings
  have htile : Tile ⟨start, 0⟩ ⟨t.lastTime, t.lastSpeedCount⟩ ws :=
    hopened ▸ windows_tile ⟨start, 0⟩ readings
  have hspeeds : speeds = ws.map (speedOver dist reverseDist) := by
    unfold speeds
    rw [run_speeds, List.reduceOption_map]
    rfl
  have hdistance : t.getDistance (latestCount 0 readings) =
      forwardTicks 0 readings * dist + reverseTicks 0 readings * reverseDist :=
    run_distance d readings rfl rfl rfl rfl _
  refine ⟨⟨?_, ?_, ?_⟩, ⟨htile, hspeeds⟩, ?_, hdistance⟩
  · rw [hforward]
    exact forwardTicks_nonneg 0 readings
  · rw [hreverse]
    exact reverseTicks_nonpos 0 readings
  · rw [hforward, hreverse, hadd, sub_zero]
  · rintro rfl
    have hticks : (latestCount 0 readings : R) =
        forwardTicks 0 readings + reverseTicks 0 readings := by
      exact_mod_cast (hadd.trans (sub_zero _)).symm
    rw [hspeeds, sum_speed_mul_seconds, ← hopened, hdistance]
    push_cast
    rw [hticks]
    ring

/-- Ten ticks forward and six back, with the last call too early for a speed. -/
def backAndForth : List Reading := [⟨5000, 3⟩, ⟨20000, 10⟩, ⟨30000, 4⟩]

theorem backAndForth_counted :
    let d := (EncoderData.ofEncoder (0.032 : ℚ) 0).setReverseDistancePerPulse 0.032
    let t := final encoderStep d (calls backAndForth)
    let ws := (windows ⟨0, 0⟩ backAndForth).reduceOption
    let speeds := (outputs encoderStep d (calls backAndForth)).reduceOption
    (List.zipWith (fun speed w => speed * seconds w) speeds ws).sum +
      0.032 * ((latestCount 0 backAndForth - t.lastSpeedCount : ℤ) : ℚ) =
        t.getDistance (latestCount 0 backAndForth) :=
  (no_tick_lost (0.032 : ℚ) 0.032 0 backAndForth).2.2.1 rfl

end Windows

end SparxRobot.Sensors
