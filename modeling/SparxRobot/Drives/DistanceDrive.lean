import SparxRobot.Drives.Command
import Mathlib.Tactic.Linarith
import Mathlib.Tactic.Ring

/-! Drives by a distance. They end by the encoders' totals, which nothing zeroes between two
drives. -/
namespace SparxRobot.Drives
open Machine

variable {R : Type*} [Field R] [LinearOrder R]

section Iteration

/-- The mean of what two wheels have gone either way. -/
def meanDistance (right left : R) : R := (|right| + |left|) / 2.0

/-- What the wheels have gone from one state to another. -/
def travelled (s t : DrivesState R) : R :=
  meanDistance (t.rightCurrentDistance - s.rightCurrentDistance)
    (t.leftCurrentDistance - s.leftCurrentDistance)

/-- What the encoders have counted in all. -/
def DrivesReading.total (r : DrivesReading R) : R := meanDistance r.rightDistance r.leftDistance

/-- What an iteration leaves the wheels for braking. -/
def DrivesReading.braking (r : DrivesReading R) : R :=
  let speed := |(r.rightSpeed + r.leftSpeed) / 2.0|
  if speed > 16.0 then (speed - 12.0) * 0.25 + 0.5 else 0

/-- The wheels are slow enough to be stopped at once. -/
def Slow (r : DrivesReading R) : Prop := |r.rightSpeed| ≤ 16.0 ∧ |r.leftSpeed| ≤ 16.0

/-- The totals are where a drive by `distance` ends. -/
def Arrives (distance : R) (r : DrivesReading R) : Prop :=
  |distance - r.braking - 0.5| ≤ r.total

instance (distance : R) (r : DrivesReading R) : Decidable (Arrives distance r) :=
  inferInstanceAs (Decidable (_ ≤ _))

variable {r : DrivesReading R} {s : DrivesState R}

private theorem driveDistance_totals :
    (driveDistance r s).rightCurrentDistance = s.rightCurrentDistance ∧
      (driveDistance r s).leftCurrentDistance = s.leftCurrentDistance := by
  unfold driveDistance
  extract_lets
  split <;> exact ⟨rfl, rfl⟩

private theorem runState_distance [FloorRing R] [JavaMath R]
    (hstate : s.currentDriveState = .autoDriveDistance) :
    runState r (sense r s) = driveDistance r (sense r s) := by
  rw [runState, sense_currentDriveState, hstate]

/-- An iteration of a drive keeps the totals it has read. -/
theorem execute_totals [FloorRing R] [JavaMath R]
    (hstate : s.currentDriveState = .autoDriveDistance) :
    (execute r s).rightCurrentDistance = r.rightDistance ∧
      (execute r s).leftCurrentDistance = r.leftDistance := by
  rw [execute_eq, runState_distance hstate]
  exact driveDistance_totals (s := sense r s)

variable [IsStrictOrderedRing R]

theorem two_eq : (2.0 : R) = 2 := by norm_num

private theorem total_eq : (|r.rightDistance| + |r.leftDistance|) / 2 = r.total := by
  rw [DrivesReading.total, meanDistance, two_eq]

private theorem braking_eq (hspeed : s.averageSpeed = (r.rightSpeed + r.leftSpeed) / 2) :
    (if |s.averageSpeed| > 16 then s.wantedDistance - ((|s.averageSpeed| - 12) * 0.25 + 0.5)
      else s.wantedDistance) = s.wantedDistance - r.braking := by
  have h16 : (16.0 : R) = 16 := by norm_num
  have h12 : (12.0 : R) = 12 := by norm_num
  rw [DrivesReading.braking, two_eq, h16, h12, hspeed]
  split <;> simp

/-- What an iteration of a drive makes of the drive. -/
theorem driveDistance_sensed (hstate : s.currentDriveState = .autoDriveDistance)
    (hspeed : s.averageSpeed = (r.rightSpeed + r.leftSpeed) / 2) :
    (driveDistance r s).currentDriveState =
        (if Arrives s.wantedDistance r then .standby else .autoDriveDistance) ∧
      (driveDistance r s).driveDone = (decide (Arrives s.wantedDistance r) || s.driveDone) ∧
      (driveDistance r s).wantedSpeed =
        min s.wantedSpeed (s.wantedDistance - r.braking - r.total + 40) := by
  unfold driveDistance
  rw [total_eq, braking_eq hspeed]
  extract_lets straightCorrection averageDistance calculatedDistance distanceToGo wantedSpeed t
  have hmin : wantedSpeed = min s.wantedSpeed (s.wantedDistance - r.braking - r.total + 40) := by
    rw [min_comm, min_def_lt]
  by_cases h : Arrives s.wantedDistance r
  · rw [if_pos (show averageDistance ≥ |calculatedDistance - 0.5| from h), if_pos h,
      decide_eq_true h]
    exact ⟨rfl, rfl, hmin⟩
  · rw [if_neg (show ¬ averageDistance ≥ |calculatedDistance - 0.5| from h), if_neg h,
      decide_eq_false h]
    exact ⟨hstate, rfl, hmin⟩

variable [FloorRing R] [JavaMath R]

/-- What an iteration makes of a drive. -/
theorem execute_distance (hstate : s.currentDriveState = .autoDriveDistance) :
    (execute r s).currentDriveState =
        (if Arrives s.wantedDistance r then .standby else .autoDriveDistance) ∧
      (execute r s).driveDone = (decide (Arrives s.wantedDistance r) || s.driveDone) ∧
      (execute r s).wantedSpeed =
        min s.wantedSpeed (s.wantedDistance - r.braking - r.total + 40) := by
  rw [execute_currentDriveState, execute_driveDone, execute_wantedSpeed, runState_distance hstate]
  exact driveDistance_sensed (s := sense r s) hstate rfl

end Iteration

section Commands

/-- The distance a command asks the drives to go. -/
def DriveCommand.drivesBy : DriveCommand R → Option R
  | .autoDriveDistance _ distance _ => some distance
  | .moveToLift _ distanceToLift _ _ => some (distanceToLift - LIFT_TAPE_GEAR_DISTANCE R)
  | _ => none

variable [JavaMath R] {s : DrivesState R}

theorem issue_drivesBy {c : DriveCommand R} {distance : R} (hc : c.drivesBy = some distance)
    (hdone : isAutoDone s = true) :
    (issue c s).1.currentDriveState = .autoDriveDistance ∧
      (issue c s).1.wantedDistance = distance := by
  cases c <;> simp [DriveCommand.drivesBy] at hc
  case autoDriveDistance => simp [issue, autoDriveDistance, hdone, hc]
  case moveToLift => simp [issue, moveToLift, hdone, hc]

variable [FloorRing R]

theorem iterations_moment {rs : List (DrivesReading R)} {m : DrivesMoment R}
    (hm : m ∈ iterations s rs) : ∃ r ∈ rs, m = moment drivesStep m.pre (.execute r) := by
  have hmoment := eq_moment_of_mem hm
  obtain ⟨r, hr, hinput⟩ := List.mem_map.mp (input_mem_of_mem hm)
  rw [← hinput] at hmoment
  exact ⟨r, hr, hmoment⟩

/-- The iterations after a command leave the distance it asks for alone. -/
theorem iterations_wantedDistance {rs : List (DrivesReading R)} {m : DrivesMoment R}
    (hm : m ∈ iterations s rs) :
    m.pre.wantedDistance = s.wantedDistance ∧ m.post.wantedDistance = s.wantedDistance := by
  have hstep : ∀ (t : DrivesState R) (e : DrivesEvent R), t.wantedDistance = s.wantedDistance →
      (∃ r, e = .execute r) → (drivesStep t e).1.wantedDistance = s.wantedDistance := by
    rintro t e ht ⟨r, rfl⟩
    exact (execute_keeps r (s := t)).wantedDistance.trans ht
  have hinput : ∀ m' ∈ iterations s rs, ∃ r, m'.input = .execute r := by
    intro m' hm'
    obtain ⟨r, -, hmoment⟩ := iterations_moment hm'
    exact ⟨r, congrArg Moment.input hmoment⟩
  exact (invariant_of_step hstep (Eq.refl s.wantedDistance) hinput).1 m hm

end Commands

section Measured

/-- An iteration reports the end of the drive. -/
def DriveEnds (m : DrivesMoment R) : Prop :=
  m.pre.currentDriveState = .autoDriveDistance ∧ m.post.currentDriveState = .standby ∧
    m.post.driveDone = true

/-- A drive that ends has gone the distance since its start. -/
def MeasuredFrom (start : DrivesState R) (m : DrivesMoment R) : Prop :=
  DriveEnds m → |m.post.wantedDistance| - 0.5 ≤ travelled start m.post

variable [IsStrictOrderedRing R]

theorem meanDistance_nonneg (right left : R) : 0 ≤ meanDistance right left := by
  unfold meanDistance
  positivity

theorem meanDistance_sub_le (right left right' left' : R) :
    meanDistance right left - meanDistance right' left' ≤
      meanDistance (right - right') (left - left') := by
  have hright := abs_sub_abs_le_abs_sub right right'
  have hleft := abs_sub_abs_le_abs_sub left left'
  rw [meanDistance, meanDistance, meanDistance, two_eq]
  linarith

theorem braking_of_slow {r : DrivesReading R} (hslow : Slow r) : r.braking = 0 := by
  obtain ⟨hright, hleft⟩ := hslow
  have hmean : |(r.rightSpeed + r.leftSpeed) / 2.0| ≤ 16.0 := by
    have hsum := abs_add_le r.rightSpeed r.leftSpeed
    rw [two_eq, abs_div, abs_two]
    linarith
  exact if_neg hmean.not_gt

/-- A total further out by a given amount. -/
def further (amount total : R) : R := if total < 0 then total - amount else total + amount

theorem abs_further {amount : R} (hamount : 0 ≤ amount) (total : R) :
    |further amount total| = |total| + amount ∧ |further amount total - total| = amount := by
  unfold further
  split <;> rename_i h
  · rw [abs_of_neg h, abs_of_neg (by linarith), sub_sub_cancel_left, abs_neg, abs_of_nonneg hamount]
    exact ⟨by ring, rfl⟩
  · rw [abs_of_nonneg (not_lt.mp h), abs_of_nonneg (by linarith), add_sub_cancel_left,
      abs_of_nonneg hamount]
    exact ⟨rfl, rfl⟩

/-- Half an inch is taken off the distance; off a backward one that puts half an inch on. -/
theorem abs_sub_half {distance : R} (h : 0.5 < |distance|) :
    |distance - 0.5| = |distance| - 0.5 + if distance < 0 then 1 else 0 := by
  have hone : (1 : R) = 0.5 + 0.5 := by norm_num
  by_cases hneg : distance < 0
  · rw [abs_of_neg hneg, if_pos hneg, abs_of_neg (by linarith), hone]
    ring
  · rw [abs_of_nonneg (not_lt.mp hneg)] at h
    rw [abs_of_nonneg (not_lt.mp hneg), if_neg hneg, abs_of_pos (by linarith), add_zero]

variable [FloorRing R] [JavaMath R] {start : DrivesState R}

/-- The readings that end a drive by `distance` too early are the ones that find the wheels
short of it while the totals have come to it. -/
theorem measuredFrom_iff {s : DrivesState R} {r : DrivesReading R} (hslow : Slow r)
    (hstate : s.currentDriveState = .autoDriveDistance) :
    MeasuredFrom start (moment drivesStep s (.execute r)) ↔
      (|s.wantedDistance - 0.5| ≤ r.total →
        |s.wantedDistance| - 0.5 ≤ meanDistance (r.rightDistance - start.rightCurrentDistance)
          (r.leftDistance - start.leftCurrentDistance)) := by
  obtain ⟨hends, hdone, -⟩ := execute_distance (r := r) hstate
  obtain ⟨hright, hleft⟩ := execute_totals (r := r) hstate
  have harrives : DriveEnds (moment drivesStep s (.execute r)) ↔ Arrives s.wantedDistance r := by
    unfold DriveEnds
    rw [moment_pre, moment_execute_post, hends, hdone]
    by_cases h : Arrives s.wantedDistance r <;> simp [h, hstate]
  have hwanted : (execute r s).wantedDistance = s.wantedDistance :=
    (execute_keeps r (s := s)).wantedDistance
  unfold MeasuredFrom
  rw [harrives, Arrives, braking_of_slow hslow, sub_zero, travelled, moment_execute_post, hwanted,
    hright, hleft]

/-- Totals that are not zero enough let a drive end where it has not gone its distance. -/
theorem exists_short_drive {s : DrivesState R} {distance : R} (hfar : 0.5 < |distance|)
    (htotal : (if distance < 0 then 1 else 0) <
      meanDistance start.rightCurrentDistance start.leftCurrentDistance)
    (hstate : s.currentDriveState = .autoDriveDistance) (hdistance : s.wantedDistance = distance) :
    ∃ r, Slow r ∧ ¬ MeasuredFrom start (moment drivesStep s (.execute r)) := by
  obtain ⟨amount, hnonneg, henough, hshort⟩ : ∃ amount, 0 ≤ amount ∧
      |distance - 0.5| ≤
        meanDistance start.rightCurrentDistance start.leftCurrentDistance + amount ∧
      amount < |distance| - 0.5 := by
    let short := |distance - 0.5| -
      meanDistance start.rightCurrentDistance start.leftCurrentDistance
    have hshort : short < |distance| - 0.5 := by
      unfold short
      rw [abs_sub_half hfar]
      linarith
    refine ⟨max 0 short, le_max_left 0 short, ?_, max_lt (by linarith) hshort⟩
    rw [← sub_le_iff_le_add']
    exact le_max_right 0 short
  obtain ⟨hright, hright'⟩ := abs_further hnonneg start.rightCurrentDistance
  obtain ⟨hleft, hleft'⟩ := abs_further hnonneg start.leftCurrentDistance
  let r : DrivesReading R :=
    { rightDistance := further amount start.rightCurrentDistance
      leftDistance := further amount start.leftCurrentDistance }
  have hslow : Slow r := by
    constructor <;> norm_num [r]
  have htravelled : meanDistance (r.rightDistance - start.rightCurrentDistance)
      (r.leftDistance - start.leftCurrentDistance) = amount := by
    rw [meanDistance, hright', hleft', two_eq, add_self_div_two]
  have htotals : r.total =
      meanDistance start.rightCurrentDistance start.leftCurrentDistance + amount := by
    rw [DrivesReading.total, meanDistance, meanDistance, hright, hleft, two_eq]
    ring
  refine ⟨r, hslow, fun hmeasured => ?_⟩
  rw [measuredFrom_iff hslow hstate, hdistance, htravelled, htotals] at hmeasured
  exact hshort.not_ge (hmeasured henough)

/-- A drive is measured from its start, however slowly driven, exactly when it is too short to
matter, or the totals are zero at its start, or for a backward drive one at the most. -/
theorem distance_measured_iff {s : DrivesState R} {c : DriveCommand R} {distance : R}
    (hc : c.drivesBy = some distance) (hdone : isAutoDone s = true) :
    (∀ rs, (∀ r ∈ rs, Slow r) → ∀ m ∈ iterations (issue c s).1 rs, MeasuredFrom s m) ↔
      |distance| ≤ 0.5 ∨
        meanDistance s.rightCurrentDistance s.leftCurrentDistance ≤
          if distance < 0 then 1 else 0 := by
  obtain ⟨hstate, hdistance⟩ := issue_drivesBy hc hdone
  constructor
  · intro hall
    by_contra hnot
    push Not at hnot
    obtain ⟨r, hslow, hshort⟩ := exists_short_drive hnot.1 hnot.2 hstate hdistance
    exact hshort (hall [r] (by simpa using hslow) _ List.mem_cons_self)
  · intro hcond rs hslow m hm
    obtain ⟨r, hr, hmoment⟩ := iterations_moment hm
    obtain ⟨hpre, -⟩ := iterations_wantedDistance hm
    by_cases hdriving : m.pre.currentDriveState = .autoDriveDistance
    · rw [hmoment, measuredFrom_iff (hslow r hr) hdriving, hpre, hdistance]
      intro harrives
      have hgone := meanDistance_sub_le r.rightDistance r.leftDistance s.rightCurrentDistance
        s.leftCurrentDistance
      rw [DrivesReading.total] at harrives
      rcases le_or_gt |distance| 0.5 with hshort | hfar
      · exact (sub_nonpos.mpr hshort).trans (meanDistance_nonneg _ _)
      · have hzero := hcond.resolve_left hfar.not_ge
        rw [abs_sub_half hfar] at harrives
        linarith
    · exact fun hends => absurd hends.1 hdriving

/-- The first drive from power-on, found at its end. -/
theorem firstDrive_measured : MeasuredFrom ({} : DrivesState ℝ)
    (moment drivesStep (issue (.autoDriveDistance 0 24 30) {}).1
      (.execute { rightDistance := 24, leftDistance := 24 })) := by
  have hdrive : (DriveCommand.autoDriveDistance (0 : ℝ) 24 30).drivesBy = some 24 := rfl
  refine (distance_measured_iff (s := {}) hdrive rfl).mpr (.inr ?_)
    [{ rightDistance := 24, leftDistance := 24 }] ?_ _ List.mem_cons_self
  · norm_num [meanDistance]
  · norm_num [Slow]

/-- The robot has been driven a hundred inches. -/
noncomputable def drivenBefore : DrivesState ℝ :=
  execute { rightDistance := 100.0, leftDistance := 100.0 } {}

theorem drivenBefore_goes_nowhere : ¬ ∀ (s : DrivesState ℝ) c distance, Reachable s →
    isAutoDone s = true → DriveCommand.drivesBy c = some distance →
      ∀ rs, (∀ r ∈ rs, Slow r) → ∀ m ∈ iterations (issue c s).1 rs, MeasuredFrom s m := by
  intro hall
  have hreach : Reachable drivenBefore :=
    ⟨[.execute { rightDistance := 100.0, leftDistance := 100.0 }], rfl⟩
  have hdone : isAutoDone drivenBefore = true := execute_done trivial rfl
  have hdrive : (DriveCommand.autoDriveDistance (0 : ℝ) 24 30).drivesBy = some 24 := rfl
  obtain ⟨hstate, hdistance⟩ := issue_drivesBy hdrive hdone
  have hright : drivenBefore.rightCurrentDistance = 100.0 := rfl
  have hleft : drivenBefore.leftCurrentDistance = 100.0 := rfl
  have htotal : (if (24 : ℝ) < 0 then (1 : ℝ) else 0) <
      meanDistance drivenBefore.rightCurrentDistance drivenBefore.leftCurrentDistance := by
    rw [hright, hleft]
    norm_num [meanDistance]
  obtain ⟨r, hslow, hshort⟩ :=
    exists_short_drive (by norm_num) htotal hstate hdistance
  exact hshort (hall _ _ _ hreach hdone hdrive [r] (by simpa using hslow) _ List.mem_cons_self)

end Measured

end SparxRobot.Drives
