import SparxRobot.Drives.Command
import SparxRobot.Java.Angle

/-! Two ways to a point: a travel turns by the angle of the quotient, in radians and from where
the robot heads; a drive to a coordinate takes the bearing in degrees. -/
namespace SparxRobot.Drives
open Java

variable {s : DrivesState ℝ}

/-- The distance between two points. -/
noncomputable def distance (x y x' y' : ℝ) : ℝ := Real.sqrt ((x - x') ^ 2 + (y - y') ^ 2)

/-- The heading a travel turns to, and the distance it means to drive. -/
theorem travelToCoordinate_asks (angle x y driveSpeed turnSpeed : ℝ) (hdone : isAutoDone s = true) :
    (travelToCoordinate angle x y driveSpeed turnSpeed s).1.wantedAngle =
        s.currentAngle + atanOfQuotient (x - s.currentX) (y - s.currentY) ∧
      (travelToCoordinate angle x y driveSpeed turnSpeed s).1.wantedDistance =
        distance x y s.currentX s.currentY := by
  have htrig : isAutoDone (trig x y s) = true := hdone
  have hdistance : distance x y s.currentX s.currentY =
      JavaMath.sqrt
        ((x - s.currentX) * (x - s.currentX) + (y - s.currentY) * (y - s.currentY)) := by
    rw [distance, sq, sq]
    rfl
  rw [hdistance]
  cases hd : s.driveDone <;>
    simp [travelToCoordinate, hdone, autoTurnToAngle, htrig] <;> simp [trig, hd]

/-- The heading of a drive to a coordinate. -/
theorem autoDriveCoordinate_heads (x y : ℝ) {speed : ℝ} (hspeed : 0 < speed)
    (hdone : isAutoDone s = true) :
    (autoDriveCoordinate x y speed s).1.initialHeading =
      toDegrees (JavaMath.atan2 (x - s.currentX) (y - s.currentY)) := by
  simp [autoDriveCoordinate, hdone, hspeed.not_gt]

/-- What the heading has to be for the angle of the quotient to make up for its unit and for
the half plane it leaves out. -/
noncomputable def compensatingHeading (dx dy : ℝ) : ℝ :=
  (180.0 / Real.pi - 1) * atanOfQuotient dx dy + if dy < 0 then 180.0 else 0

/-- The two ways agree on the distance, and on the heading exactly when the robot's own makes
up for the difference. -/
theorem bearings_agree_iff (angle x y driveSpeed turnSpeed : ℝ) {speed : ℝ} (hspeed : 0 < speed)
    (hdone : isAutoDone s = true) (hpoint : x ≠ s.currentX ∨ y ≠ s.currentY) :
    ((travelToCoordinate angle x y driveSpeed turnSpeed s).1.wantedAngle ≡
          (autoDriveCoordinate x y speed s).1.initialHeading [PMOD 360] ∧
        (travelToCoordinate angle x y driveSpeed turnSpeed s).1.wantedDistance =
          distance x y s.currentX s.currentY) ↔
      s.currentAngle ≡ compensatingHeading (x - s.currentX) (y - s.currentY) [PMOD 360] := by
  obtain ⟨hangle, hdistance⟩ := travelToCoordinate_asks angle x y driveSpeed turnSpeed hdone
  rw [hangle, hdistance, autoDriveCoordinate_heads x y hspeed hdone, and_iff_left rfl]
  have hmod := toDegrees_modEq (atan2_modEq (hpoint.imp sub_ne_zero.mpr sub_ne_zero.mpr))
  have hbearing : toDegrees (atanOfQuotient (x - s.currentX) (y - s.currentY) +
      if y - s.currentY < 0 then Real.pi else 0) =
        compensatingHeading (x - s.currentX) (y - s.currentY) +
          atanOfQuotient (x - s.currentX) (y - s.currentY) := by
    have hpi := Real.pi_ne_zero
    rw [toDegrees_eq, compensatingHeading]
    split_ifs <;> field_simp <;> norm_num <;> ring
  rw [hbearing] at hmod
  constructor
  · intro h
    exact (h.trans hmod).add_right_cancel' _
  · intro h
    exact (h.add_right _).trans hmod.symm

/-- A point straight ahead of a robot at heading zero. -/
theorem straightAhead_agrees :
    (travelToCoordinate (0 : ℝ) 0 10 40 30 {}).1.wantedAngle ≡
        (autoDriveCoordinate (0 : ℝ) 10 40 {}).1.initialHeading [PMOD 360] ∧
      (travelToCoordinate (0 : ℝ) 0 10 40 30 {}).1.wantedDistance = distance 0 10 0 0 := by
  refine (bearings_agree_iff (s := {}) 0 0 10 40 30 (by norm_num) rfl (.inr (by norm_num))).mpr ?_
  have hatan : atanOfQuotient (0 : ℝ) 10 = 0 := by
    rw [atanOfQuotient, if_neg (by norm_num), zero_div]
    exact Real.arctan_zero
  have hzero : compensatingHeading (0 - 0) (10 - 0) = 0 := by
    rw [sub_zero, sub_zero, compensatingHeading, hatan, mul_zero, zero_add, if_neg (by norm_num)]
  change (0 : ℝ) ≡ compensatingHeading (0 - 0) (10 - 0) [PMOD 360]
  rw [hzero]

/-- To a point ahead on the right a travel turns less than a degree. -/
theorem diagonal_disagrees : ¬ ∀ (s : DrivesState ℝ) (angle x y driveSpeed turnSpeed speed : ℝ),
    Reachable s → isAutoDone s = true → 0 < speed → (x ≠ s.currentX ∨ y ≠ s.currentY) →
      (travelToCoordinate angle x y driveSpeed turnSpeed s).1.wantedAngle ≡
          (autoDriveCoordinate x y speed s).1.initialHeading [PMOD 360] ∧
        (travelToCoordinate angle x y driveSpeed turnSpeed s).1.wantedDistance =
          distance x y s.currentX s.currentY := by
  intro hall
  obtain ⟨hsame, -⟩ := hall {} 0 10 10 40 30 40 ⟨[], rfl⟩ rfl (by norm_num) (.inl (by norm_num))
  rw [(travelToCoordinate_asks 0 10 10 40 30 rfl).1,
    autoDriveCoordinate_heads 10 10 (by norm_num) rfl] at hsame
  have hquotient : atanOfQuotient (10 - 0 : ℝ) (10 - 0) = Real.pi / 4 := by
    rw [atanOfQuotient, if_neg (by norm_num), div_self (by norm_num)]
    exact Real.arctan_one
  have hdirection := atan2_modEq (y := 10 - 0) (x := 10 - 0) (.inl (by norm_num))
  rw [hquotient, if_neg (by norm_num), add_zero] at hdirection
  have hbearing : toDegrees (Real.pi / 4) = 45 := by
    have hpi := Real.pi_ne_zero
    rw [toDegrees_eq]
    field_simp
    norm_num
  have hmod := hsame.trans (toDegrees_modEq hdirection)
  rw [hquotient, hbearing] at hmod
  have hfour := Real.pi_le_four
  have hpos := Real.pi_pos
  have hnear : |45 - (0 + Real.pi / 4)| < 360 := by
    rw [abs_lt]
    constructor <;> linarith
  have heq : (0 : ℝ) + Real.pi / 4 = 45 := eq_of_modEq_of_near hmod hnear
  linarith

end SparxRobot.Drives
