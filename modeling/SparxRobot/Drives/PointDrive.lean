import SparxRobot.Drives.Command
import SparxRobot.Java.Angle

/-! Drives to a point. Driven in reverse, with the robot the other way round, a drive is the
mirror image of the drive forward. -/
namespace SparxRobot.Drives
open Machine Java

section Iteration

variable (r : DrivesReading ℝ) (s : DrivesState ℝ)

/-- How far the point is. -/
noncomputable def pointDistance : ℝ :=
  JavaMath.sqrt ((s.endX - s.currentX) * (s.endX - s.currentX) +
    (s.endY - s.currentY) * (s.endY - s.currentY))

/-- The direction of the point, from where the robot heads. -/
noncomputable def pointDirection : ℝ :=
  JavaMath.atan2 (s.endX - s.currentX) (s.endY - s.currentY) - toRadians s.currentAngle

/-- An iteration takes the point for reached, or for passed. -/
def PointReached : Prop := (drivePoint r s).autoReady = true

theorem drivePoint_angleToEnd : (drivePoint r s).angleToEnd =
    if s.wantedSpeed < 0 then
      IEEEremainder (IEEEremainder (pointDirection s) (Real.pi * 2) + Real.pi) (Real.pi * 2)
    else IEEEremainder (pointDirection s) (Real.pi * 2) := by
  unfold drivePoint
  extract_lets
  split <;> rfl

theorem drivePoint_distanceToPoint : (drivePoint r s).distanceToPoint =
    if |s.averageSpeed| > 16 then pointDistance s - ((|s.averageSpeed| - 12) * 0.32 + 0.5)
    else pointDistance s := by
  unfold drivePoint
  extract_lets
  split <;> rfl

theorem drivePoint_wantedSpeed : (drivePoint r s).wantedSpeed =
    if |s.wantedSpeed| > (drivePoint r s).distanceToPoint + 40 then
      ((drivePoint r s).distanceToPoint + 40) * (if s.wantedSpeed < 0 then -1 else 1)
    else s.wantedSpeed := by
  rw [drivePoint_distanceToPoint]
  unfold drivePoint
  extract_lets
  split <;> rfl

variable {r s}

theorem pointReached_iff : PointReached r s ↔
    (drivePoint r s).distanceToPoint < 0.5 ∨ |(drivePoint r s).angleToEnd| > toRadians 90 := by
  unfold PointReached drivePoint
  extract_lets xChange yChange distance forward angleToEnd offset straight average distanceToPoint
    wantedSpeed t
  split <;> rename_i h
  · exact iff_of_true rfl h
  · exact iff_of_false (by simp [t]) h

theorem drivePoint_of_reached (h : PointReached r s) :
    (drivePoint r s).currentDriveState = .standby := by
  revert h
  unfold PointReached drivePoint
  extract_lets
  split
  · exact fun _ => rfl
  · exact fun h => Bool.noConfusion h

theorem drivePoint_of_not_reached (h : ¬ PointReached r s) :
    (drivePoint r s).currentDriveState = s.currentDriveState ∧
      (drivePoint r s).rightWantedSpeed = (drivePoint r s).wantedSpeed +
        IEEEremainder (getAdjustedAngle r.correctionAngle s - s.initialHeading) 360 / 4 -
        Real.sin (drivePoint r s).angleToEnd * pointDistance s / 2 ∧
      (drivePoint r s).leftWantedSpeed = (drivePoint r s).wantedSpeed -
        IEEEremainder (getAdjustedAngle r.correctionAngle s - s.initialHeading) 360 / 4 +
        Real.sin (drivePoint r s).angleToEnd * pointDistance s / 2 := by
  revert h
  unfold PointReached drivePoint
  extract_lets
  split
  · exact fun h => absurd rfl h
  · exact fun _ => ⟨rfl, rfl, rfl⟩

end Iteration

section Reverse

/-- The robot stands the other way round, with its right side where the left one is, and is
asked for the opposite speed. -/
structure Reverses (s s' : DrivesState ℝ) : Prop where
  currentDriveState : s'.currentDriveState = s.currentDriveState
  endX : s'.endX = s.endX
  endY : s'.endY = s.endY
  currentX : s'.currentX = s.currentX
  currentY : s'.currentY = s.currentY
  currentAngle : s'.currentAngle ≡ s.currentAngle + 180 [PMOD 360]
  initialHeading : s'.initialHeading = s.initialHeading + 180
  gyroZero : s'.gyroZero = s.gyroZero
  averageSpeed : s'.averageSpeed = -s.averageSpeed
  wantedSpeed : s'.wantedSpeed = -s.wantedSpeed

/-- What the sensors read the other way round. -/
noncomputable def DrivesReading.reversed (r : DrivesReading ℝ) : DrivesReading ℝ :=
  { r with
    angle := r.angle + 180.0
    correctionAngle := r.correctionAngle + 180.0
    rightSpeed := -r.leftSpeed
    leftSpeed := -r.rightSpeed
    rightDistance := -r.leftDistance
    leftDistance := -r.rightDistance }

/-- A drive ends together with its mirror image, or goes on with the sides exchanged and all
speeds opposite. -/
structure MirrorImage (t t' : DrivesState ℝ) : Prop where
  completes : t'.currentDriveState = .standby ↔ t.currentDriveState = .standby
  rightWantedSpeed : t.currentDriveState ≠ .standby → t'.rightWantedSpeed = -t.leftWantedSpeed
  leftWantedSpeed : t.currentDriveState ≠ .standby → t'.leftWantedSpeed = -t.rightWantedSpeed
  wantedSpeed : t.currentDriveState ≠ .standby → t'.wantedSpeed = -t.wantedSpeed

variable {r : DrivesReading ℝ} {s s' : DrivesState ℝ}

theorem Reverses.pointDistance (h : Reverses s s') : pointDistance s' = pointDistance s := by
  rw [Drives.pointDistance, h.endX, h.endY, h.currentX, h.currentY]
  rfl

theorem Reverses.distanceToPoint (h : Reverses s s') (r' : DrivesReading ℝ) :
    (drivePoint r' s').distanceToPoint = (drivePoint r s).distanceToPoint := by
  rw [drivePoint_distanceToPoint, drivePoint_distanceToPoint, h.averageSpeed, abs_neg,
    h.pointDistance]

/-- With the half turn that reverse driving adds, the point lies in the same direction. -/
theorem Reverses.pointDirection (h : Reverses s s') :
    IEEEremainder (pointDirection s') (Real.pi * 2) + Real.pi ≡ pointDirection s
      [PMOD Real.pi * 2] := by
  have hangle := toRadians_modEq h.currentAngle
  rw [toRadians_add, toRadians_half_turn] at hangle
  obtain ⟨k, hk⟩ := AddCommGroup.modEq_iff_zsmul'.mp hangle
  refine ((IEEEremainder_modEq _ _).add_right Real.pi).trans ?_
  refine AddCommGroup.modEq_iff_zsmul'.mpr ⟨-k, ?_⟩
  rw [neg_zsmul, mul_comm Real.pi, ← hk, Drives.pointDirection, Drives.pointDirection, h.endX,
    h.endY, h.currentX, h.currentY]
  ring

/-- It is the same number but for the ties, where both are half a turn. -/
theorem Reverses.angleToEnd (h : Reverses s s') (hspeed : 0 < s.wantedSpeed)
    (r' : DrivesReading ℝ) :
    |(drivePoint r' s').angleToEnd| = |(drivePoint r s).angleToEnd| ∧
      (|(drivePoint r s).angleToEnd| < Real.pi →
        (drivePoint r' s').angleToEnd = (drivePoint r s).angleToEnd) := by
  have hback : s'.wantedSpeed < 0 := by
    rw [h.wantedSpeed]
    linarith
  rw [drivePoint_angleToEnd, drivePoint_angleToEnd, if_pos hback, if_neg hspeed.not_gt]
  refine ⟨abs_IEEEremainder_congr (by positivity) h.pointDirection, fun hlt => ?_⟩
  refine IEEEremainder_congr h.pointDirection.symm ?_
  rwa [mul_div_cancel_right₀ _ two_ne_zero]

theorem Reverses.reached_iff (h : Reverses s s') (hspeed : 0 < s.wantedSpeed)
    (r' : DrivesReading ℝ) : PointReached r' s' ↔ PointReached r s := by
  rw [pointReached_iff, pointReached_iff, h.distanceToPoint (r := r), (h.angleToEnd hspeed r').1]

theorem Reverses.newSpeed (h : Reverses s s') (hspeed : 0 < s.wantedSpeed) (r' : DrivesReading ℝ) :
    (drivePoint r' s').wantedSpeed = -(drivePoint r s).wantedSpeed := by
  have hback : s'.wantedSpeed < 0 := by
    rw [h.wantedSpeed]
    linarith
  rw [drivePoint_wantedSpeed, drivePoint_wantedSpeed, if_pos hback, if_neg hspeed.not_gt,
    h.distanceToPoint (r := r), h.wantedSpeed, abs_neg]
  split <;> ring

/-- Short of the point the speed stays forward. -/
theorem newSpeed_pos (hspeed : 0 < s.wantedSpeed) (hgoes : ¬ PointReached r s) :
    0 < (drivePoint r s).wantedSpeed := by
  have hfar := not_lt.mp (not_or.mp (mt pointReached_iff.mpr hgoes)).1
  rw [drivePoint_wantedSpeed, if_neg hspeed.not_gt]
  split
  · linarith
  · exact hspeed

/-- An iteration of a drive in reverse is the mirror image of the iteration forward. -/
theorem Reverses.drivePoint (h : Reverses s s') (hspeed : 0 < s.wantedSpeed)
    (r : DrivesReading ℝ) :
    MirrorImage (drivePoint r s) (drivePoint r.reversed s') := by
  have hreached := h.reached_iff (r := r) hspeed r.reversed
  by_cases hr : PointReached r s
  · have hends := drivePoint_of_reached hr
    have hends' := drivePoint_of_reached (hreached.mpr hr)
    exact ⟨iff_of_true hends' hends, fun hgoes => absurd hends hgoes,
      fun hgoes => absurd hends hgoes, fun hgoes => absurd hends hgoes⟩
  · obtain ⟨hgoes, hright, hleft⟩ := drivePoint_of_not_reached hr
    obtain ⟨hgoes', hright', hleft'⟩ := drivePoint_of_not_reached (mt hreached.mp hr)
    have hlt : |(Drives.drivePoint r s).angleToEnd| < Real.pi := by
      have hfront := not_lt.mp (not_or.mp (mt pointReached_iff.mpr hr)).2
      rw [toRadians_right_angle] at hfront
      linarith [Real.pi_pos]
    have hangle := (h.angleToEnd hspeed r.reversed).2 hlt
    have hstraight : getAdjustedAngle r.reversed.correctionAngle s' - s'.initialHeading =
        getAdjustedAngle r.correctionAngle s - s.initialHeading := by
      have h180 : (180.0 : ℝ) = 180 := by norm_num
      rw [getAdjustedAngle, getAdjustedAngle, h.gyroZero, h.initialHeading, DrivesReading.reversed,
        h180]
      ring
    have hwanted := h.newSpeed (r := r) hspeed r.reversed
    rw [hstraight, hangle, h.pointDistance, hwanted] at hright' hleft'
    refine ⟨?_, fun _ => ?_, fun _ => ?_, fun _ => hwanted⟩
    · rw [hgoes, hgoes', h.currentDriveState]
    · rw [hright', hleft]
      ring
    · rw [hleft', hright]
      ring

end Reverse

section Run

/-- The totals the last iteration kept have their sides exchanged and opposite signs. -/
def ReversesTotals (s s' : DrivesState ℝ) : Prop :=
  s'.rightPreviousDistance = -s.leftPreviousDistance ∧
    s'.leftPreviousDistance = -s.rightPreviousDistance

/-- A drive and the one in reverse are both on their way, or neither is. -/
def Paired (s s' : DrivesState ℝ) : Prop :=
  (s.currentDriveState = .autoDrivePoint ∧ 0 < s.wantedSpeed ∧ Reverses s s' ∧
    ReversesTotals s s') ∨
  (s.currentDriveState ≠ .autoDrivePoint ∧ s'.currentDriveState ≠ .autoDrivePoint)

/-- Both iterations are of the drive or neither is, and where they are they mirror each other. -/
def MirrorImages (m m' : DrivesMoment ℝ) : Prop :=
  (m'.pre.currentDriveState = .autoDrivePoint ↔ m.pre.currentDriveState = .autoDrivePoint) ∧
    (m.pre.currentDriveState = .autoDrivePoint → MirrorImage m.post m'.post)

variable {s s' : DrivesState ℝ}

/-- The odometry finds the robot in the same place. -/
theorem Reverses.sense (h : Reverses s s') (htotals : ReversesTotals s s') (r : DrivesReading ℝ) :
    Reverses (sense r s) (sense r.reversed s') := by
  have h180 : (180.0 : ℝ) = 180 := by norm_num
  have hangle : (Drives.sense r.reversed s').currentAngle ≡ (Drives.sense r s).currentAngle + 180
      [PMOD 360] := by
    have hsum : getAdjustedAngle r.reversed.angle s' = getAdjustedAngle r.angle s + 180 := by
      rw [getAdjustedAngle, getAdjustedAngle, h.gyroZero, DrivesReading.reversed, h180]
      ring
    have hmod := fmod_modEq (getAdjustedAngle r.reversed.angle s') 360
    rw [hsum] at hmod
    change fmod (getAdjustedAngle r.reversed.angle s') 360 ≡ fmod _ 360 + 180 [PMOD 360]
    rw [hsum]
    exact hmod.trans ((fmod_modEq (getAdjustedAngle r.angle s) 360).symm.add_right 180)
  have hdistance : (Drives.sense r.reversed s').averageDistance =
      -(Drives.sense r s).averageDistance := by
    change (-r.leftDistance - s'.rightPreviousDistance +
      (-r.rightDistance - s'.leftPreviousDistance)) / 2 = -((r.rightDistance -
        s.rightPreviousDistance + (r.leftDistance - s.leftPreviousDistance)) / 2)
    rw [htotals.1, htotals.2]
    ring
  obtain ⟨hsin, hcos⟩ := sin_cos_half_turn hangle
  have hx : (Drives.sense r.reversed s').currentX = (Drives.sense r s).currentX := by
    rw [sense_currentX, sense_currentX, hdistance, h.currentX]
    change _ + Real.sin _ * _ = _ + Real.sin _ * _
    rw [hsin, neg_mul_neg]
  have hy : (Drives.sense r.reversed s').currentY = (Drives.sense r s).currentY := by
    rw [sense_currentY, sense_currentY, hdistance, h.currentY]
    change _ + Real.cos _ * _ = _ + Real.cos _ * _
    rw [hcos, neg_mul_neg]
  have hspeed : (Drives.sense r.reversed s').averageSpeed = -(Drives.sense r s).averageSpeed := by
    change (-r.leftSpeed + -r.rightSpeed) / 2 = -((r.rightSpeed + r.leftSpeed) / 2)
    ring
  exact ⟨h.currentDriveState, h.endX, h.endY, hx, hy, hangle, h.initialHeading, h.gyroZero,
    hspeed, h.wantedSpeed⟩

private theorem runState_point (r : DrivesReading ℝ)
    (hstate : s.currentDriveState = .autoDrivePoint) :
    runState r (Drives.sense r s) = drivePoint r (Drives.sense r s) := by
  rw [runState, sense_currentDriveState, hstate]

/-- Beyond the switch over the drive state nothing breaks the mirror image. -/
theorem MirrorImage.execute {r r' : DrivesReading ℝ}
    (h : MirrorImage (runState r (Drives.sense r s)) (runState r' (Drives.sense r' s'))) :
    MirrorImage (execute r s) (execute r' s') := by
  obtain ⟨hends, hright, hleft, hwanted⟩ := h
  rw [← execute_currentDriveState] at hends hright hleft hwanted
  rw [← execute_currentDriveState] at hends
  rw [← execute_rightWantedSpeed, ← execute_leftWantedSpeed] at hright
  rw [← execute_leftWantedSpeed, ← execute_rightWantedSpeed] at hleft
  rw [← execute_wantedSpeed, ← execute_wantedSpeed] at hwanted
  exact ⟨hends, hright, hleft, hwanted⟩

/-- What the next iteration finds of the speeds and the totals read. -/
theorem execute_point_kept (r : DrivesReading ℝ) (hstate : s.currentDriveState = .autoDrivePoint) :
    (execute r s).averageSpeed = (Drives.sense r s).averageSpeed ∧
      (execute r s).rightPreviousDistance = r.rightDistance ∧
      (execute r s).leftPreviousDistance = r.leftDistance := by
  have hkept : ∀ t : DrivesState ℝ, (drivePoint r t).averageSpeed = t.averageSpeed ∧
      (drivePoint r t).rightCurrentDistance = t.rightCurrentDistance ∧
      (drivePoint r t).leftCurrentDistance = t.leftCurrentDistance := by
    intro t
    unfold drivePoint
    extract_lets
    split <;> exact ⟨rfl, rfl, rfl⟩
  have hprevious : (execute r s).rightPreviousDistance = (execute r s).rightCurrentDistance ∧
      (execute r s).leftPreviousDistance = (execute r s).leftCurrentDistance := ⟨rfl, rfl⟩
  rw [hprevious.1, hprevious.2, execute_eq, runState_point r hstate]
  exact hkept (Drives.sense r s)

/-- The iterations of a drive pair mirror each other and leave a pair. -/
theorem Reverses.execute (h : Reverses s s') (htotals : ReversesTotals s s')
    (hstate : s.currentDriveState = .autoDrivePoint) (hspeed : 0 < s.wantedSpeed)
    (r : DrivesReading ℝ) :
    MirrorImage (execute r s) (execute r.reversed s') ∧
      Paired (execute r s) (execute r.reversed s') := by
  have hstate' : s'.currentDriveState = .autoDrivePoint := h.currentDriveState.trans hstate
  have hsensed := h.sense htotals r
  have hrun := hsensed.drivePoint hspeed r
  rw [← runState_point r hstate, ← runState_point r.reversed hstate'] at hrun
  have himage := hrun.execute
  refine ⟨himage, ?_⟩
  by_cases hreached : PointReached r (Drives.sense r s)
  · have hends : (Drives.execute r s).currentDriveState = .standby := by
      rw [execute_currentDriveState, runState_point r hstate]
      exact drivePoint_of_reached hreached
    have hends' := himage.completes.mpr hends
    exact .inr ⟨by simp [hends], by simp [hends']⟩
  · have hreached' : ¬ PointReached r.reversed (Drives.sense r.reversed s') :=
      mt (hsensed.reached_iff hspeed r.reversed).mp hreached
    have hgoes : (Drives.execute r s).currentDriveState = .autoDrivePoint := by
      rw [execute_currentDriveState, runState_point r hstate]
      exact (drivePoint_of_not_reached hreached).1.trans hstate
    have hgoes' : (Drives.execute r.reversed s').currentDriveState = .autoDrivePoint := by
      rw [execute_currentDriveState, runState_point r.reversed hstate']
      exact (drivePoint_of_not_reached hreached').1.trans hstate'
    have hpos : 0 < (Drives.execute r s).wantedSpeed := by
      rw [execute_wantedSpeed, runState_point r hstate]
      exact newSpeed_pos hspeed hreached
    obtain ⟨haverage, hright, hleft⟩ := execute_point_kept r hstate
    obtain ⟨haverage', hright', hleft'⟩ := execute_point_kept r.reversed hstate'
    have hkept := execute_keeps r (s := s)
    have hkept' := execute_keeps r.reversed (s := s')
    refine .inl ⟨hgoes, hpos, ⟨hgoes'.trans hgoes.symm, ?_, ?_, ?_, ?_, ?_, ?_, ?_, ?_, ?_⟩, ?_⟩
    · rw [hkept.endX, hkept'.endX, hsensed.endX]
    · rw [hkept.endY, hkept'.endY, hsensed.endY]
    · rw [hkept.currentX, hkept'.currentX, hsensed.currentX]
    · rw [hkept.currentY, hkept'.currentY, hsensed.currentY]
    · rw [hkept.currentAngle, hkept'.currentAngle]
      exact hsensed.currentAngle
    · rw [hkept.initialHeading, hkept'.initialHeading, hsensed.initialHeading]
    · rw [hkept.gyroZero, hkept'.gyroZero, hsensed.gyroZero]
    · rw [haverage, haverage', hsensed.averageSpeed]
    · exact himage.wantedSpeed (by simp [hgoes])
    · rw [ReversesTotals, hright, hleft, hright', hleft']
      exact ⟨rfl, rfl⟩

/-- A drive to a coordinate and the one in reverse start a pair, unless the point lies straight
behind, where the heading of the reverse drive is taken back by a whole turn. -/
theorem Reverses.autoDriveCoordinate (h : Reverses s s') (hdone : isAutoDone s = true)
    (hdone' : isAutoDone s' = true) (x y : ℝ) {speed : ℝ} (hspeed : 0 < speed)
    (hbearing : toDegrees (JavaMath.atan2 (x - s.currentX) (y - s.currentY)) < 180) :
    Reverses (autoDriveCoordinate x y speed s).1 (autoDriveCoordinate x y (-speed) s').1 := by
  have hheading : ¬ toDegrees (JavaMath.atan2 (x - s.currentX) (y - s.currentY)) + 180 ≥ 360 := by
    linarith
  constructor <;> simp [Drives.autoDriveCoordinate, hdone, hdone', h.currentX, h.currentY,
    h.gyroZero, h.averageSpeed, hspeed, hspeed.not_gt, h.currentAngle, hheading]

/-- A drive to a point in reverse mirrors the drive forward, in one iteration from anywhere
and over the whole run. -/
theorem reverse_mirrors_forward (h : Reverses s s') (hspeed : 0 < s.wantedSpeed) :
    (∀ r : DrivesReading ℝ, MirrorImage (drivePoint r s) (drivePoint r.reversed s')) ∧
      (s.currentDriveState = .autoDrivePoint → ReversesTotals s s' →
        ∀ rs : List (DrivesReading ℝ),
          List.Forall₂ MirrorImages (iterations s rs)
            (iterations s' (rs.map DrivesReading.reversed))) := by
  refine ⟨h.drivePoint hspeed, fun hstate htotals rs => ?_⟩
  have hreadings : List.Forall₂
      (fun e e' : DrivesEvent ℝ => ∃ r, e = .execute r ∧ e' = .execute r.reversed)
      (rs.map .execute) ((rs.map DrivesReading.reversed).map .execute) := by
    rw [List.map_map, List.forall₂_map_left_iff, List.forall₂_map_right_iff, List.forall₂_same]
    exact fun r _ => ⟨r, rfl, rfl⟩
  apply forall₂_trace (J := Paired) ?_ (.inl ⟨hstate, hspeed, h, htotals⟩) hreadings
  rintro t t' _ _ (⟨ht, hpos, hrev, hsides⟩ | ⟨hother, hother'⟩) ⟨r, rfl, rfl⟩
  · obtain ⟨himage, hpair⟩ := hrev.execute hsides ht hpos r
    exact ⟨⟨iff_of_true (hrev.currentDriveState.trans ht) ht, fun _ => himage⟩, hpair⟩
  · exact ⟨⟨iff_of_false hother' hother, fun hdriving => absurd hdriving hother⟩,
      .inr ⟨execute_starts_none rfl r hother, execute_starts_none rfl r.reversed hother'⟩⟩

/-- A drive ten inches ahead, forward. -/
noncomputable def aheadForward : DrivesState ℝ :=
  { currentDriveState := .autoDrivePoint, endY := 10.0, wantedSpeed := 40.0 }

/-- The same drive in reverse. -/
noncomputable def aheadReverse : DrivesState ℝ :=
  { currentDriveState := .autoDrivePoint
    endY := 10.0
    wantedSpeed := -40.0
    currentAngle := 180.0
    initialHeading := 180.0 }

theorem ahead_mirrored :
    MirrorImage (drivePoint {} aheadForward) (drivePoint (DrivesReading.reversed {}) aheadReverse) ∧
      List.Forall₂ MirrorImages (iterations aheadForward [{}])
        (iterations aheadReverse [DrivesReading.reversed {}]) := by
  have h180 : (180.0 : ℝ) = 0 + 180 := by norm_num
  have h : Reverses aheadForward aheadReverse := by
    refine ⟨rfl, rfl, rfl, rfl, rfl, ?_, h180, rfl, neg_zero.symm, rfl⟩
    rw [show aheadReverse.currentAngle = aheadForward.currentAngle + 180 from h180]
  obtain ⟨honce, hrun⟩ := reverse_mirrors_forward h (by norm_num [aheadForward])
  exact ⟨honce {}, hrun rfl ⟨neg_zero.symm, neg_zero.symm⟩ [{}]⟩

end Run

end SparxRobot.Drives
