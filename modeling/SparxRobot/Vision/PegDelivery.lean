import Mathlib.Analysis.Real.Pi.Bounds
import Mathlib.Analysis.SpecialFunctions.Trigonometric.Arctan
import SparxRobot.Java.Angle
import SparxRobot.Vision.Finder
import SparxRobot.Vision.Table

/-! From the picture to the shared data: whether a peg that is seen is heard of. The peg is
published at a distance of one inch, where the offset of the camera turns any angle the
picture can show into one out of the window. -/
namespace SparxRobot.Vision
open MasterControl PegFinder Java

/-- The finder reports a target. -/
def Reported (rectangles : List Rect) : Prop :=
  (GetTargetData ℝ rectangles).angle ≠ -180.0 ∧ (GetTargetData ℝ rectangles).distance = 1.0

/-- The array that is published for the picture, in any state of the publisher that looks for
the peg, updates the shared data in any state of the robot. -/
def PegDelivered (rectangles : List Rect) : Prop :=
  ∀ (c : MasterControlState ℝ) (highGoalData : TargetData ℝ), c.lookingForPeg = true →
    ∀ key array,
      (masterStep c (.run (GetTargetData ℝ rectangles) highGoalData)).2 = some (key, array) →
      ∀ (now : ℤ) (s : TableState ℝ),
        let t := valueChanged key (some array) now s
        t.shared.angleToLift = -t.liftAngle ∧ t.shared.distanceToLift = t.liftDistance ∧
          t.shared.liftImageTime = now

/-- The tangent the correction comes to for a peg between two edges, times its distance. -/
noncomputable def correctedOffset (left right : ℤ) : ℝ :=
  Real.tan (Java.toRadians (angleOf ℝ left right)) + 13.75

/-- The corrected offset stays within the window's at the corrected distance. -/
def WithinWindow (left right : ℤ) : Prop :=
  |correctedOffset left right| ≤ 13.5 * Real.tan (Java.toRadians 25.0)

section Delivery

variable {rectangles : List Rect}

theorem tan_eq (x : ℝ) : Java.tan x = Real.tan x := (Real.tan_eq_sin_div_cos x).symm

/-- What the correction makes of a peg between two edges. -/
theorem applyOffset_peg (left right : ℤ) :
    applyOffset (xOffsetPeg ℝ) (yOffsetPeg ℝ) (angleOf ℝ left right) 1.0 =
      (13.5, Java.toDegrees (Real.arctan (correctedOffset left right / 13.5))) := by
  have hdistance : (1.0 : ℝ) + 12.5 = 13.5 := by norm_num
  have hone : (1.0 : ℝ) = 1 := by norm_num
  have hne : (13.5 : ℝ) ≠ 0 := by norm_num
  simp only [applyOffset, xOffsetPeg, yOffsetPeg, tan_eq, hdistance]
  rw [hone, one_mul]
  rw [Java.atanOfQuotient, if_neg hne]
  rfl

/-- The correction keeps a peg between two edges in the window. -/
theorem corrected_in_window_iff (left right : ℤ) :
    (-25.0 ≤ Java.toDegrees (Real.arctan (correctedOffset left right / 13.5)) ∧
      Java.toDegrees (Real.arctan (correctedOffset left right / 13.5)) ≤ 25.0) ↔
      WithinWindow left right := by
  have hdistance : (0 : ℝ) < 13.5 := by norm_num
  rw [arctan_window_iff (by norm_num) (by norm_num), abs_div, abs_of_pos hdistance,
    div_le_iff₀' hdistance]
  rfl

/-- What the robot does with a published peg between two edges. -/
theorem valueChanged_peg {left right : ℤ} (hangle : angleOf ℝ left right ≠ -180.0) (refresh : ℝ)
    (now : ℤ) (s : TableState ℝ) :
    let target := applyOffset (xOffsetPeg ℝ) (yOffsetPeg ℝ) (angleOf ℝ left right) 1.0
    valueChanged PEG_KEY (some [angleOf ℝ left right, 1.0, refresh]) now s =
      { s with
        liftDistance := target.1
        liftAngle := target.2
        shared := setTarget .lift target.1 target.2 now s.shared } := by
  have hkey : PEG_KEY = clientLift := rfl
  have hone : (1.0 : ℝ) ≠ -1.0 := by norm_num
  simp only [valueChanged, if_pos hkey, if_pos (And.intro hangle hone)]

/-- A reported peg lies between two edges that decide whether it is delivered. -/
theorem exists_edges (h : Reported rectangles) :
    ∃ left right, IsLeast (leftEdges rectangles) left ∧
      IsGreatest (rightEdges rectangles) right ∧
      (PegDelivered rectangles ↔ WithinWindow left right) := by
  obtain ⟨hangle, hdistance⟩ := h
  obtain ⟨left, right, hleast, hgreatest, hdata⟩ := GetTargetData_reported hdistance
  rw [hdata] at hangle
  have hvalue := valueChanged_peg hangle
  simp only [applyOffset_peg] at hvalue
  refine ⟨left, right, hleast, hgreatest, ?_⟩
  rw [← corrected_in_window_iff, ← setTarget_lift_updates_iff 13.5]
  constructor
  · intro hall now d
    have ht := hall { lookingForPeg := true } (noTarget ℝ) rfl _ _ rfl now { shared := d }
    rw [hdata] at ht
    rwa [hvalue] at ht
  · intro hupdates c highGoalData hpeg key array hpublished now s
    simp only [masterStep, hpeg, ↓reduceIte, hdata, Option.some.injEq, Prod.mk.injEq]
      at hpublished
    obtain ⟨rfl, rfl⟩ := hpublished
    rw [hvalue]
    exact hupdates now s.shared

/-- A reported peg is delivered exactly when the middle between the leftmost and the
rightmost edge that pass the checks is corrected to an angle within the window. -/
theorem peg_delivered_iff (h : Reported rectangles) : PegDelivered rectangles ↔
    ∃ left right, IsLeast (leftEdges rectangles) left ∧
      IsGreatest (rightEdges rectangles) right ∧ WithinWindow left right := by
  obtain ⟨left, right, hleast, hgreatest, hdelivered⟩ := exists_edges h
  constructor
  · intro hd
    exact ⟨left, right, hleast, hgreatest, hdelivered.mp hd⟩
  · rintro ⟨left', right', hleast', hgreatest', hwindow⟩
    apply hdelivered.mpr
    rwa [hleast.unique hleast', hgreatest.unique hgreatest']

end Delivery

section Picture

/-- A rectangle as it is found in a picture. -/
def InPicture (r : Rect) : Prop := 0 ≤ r.x ∧ 0 ≤ r.width ∧ r.x + r.width < 2 ^ 32

/-- Edges in the picture are seen at less than half a right angle to either side. -/
theorem tan_angleOf_gt {left right : ℤ} (hmin : 0 ≤ left + right)
    (hmax : left + right ≤ 2 * X_RESOLUTION) :
    -1 < Real.tan (Java.toRadians (angleOf ℝ left right)) := by
  have hmin' : (0 : ℝ) ≤ ((left + right : ℤ) : ℝ) := by exact_mod_cast hmin
  have hmax' : ((left + right : ℤ) : ℝ) ≤ 1280 := by exact_mod_cast hmax
  have hbounds : -45 < angleOf ℝ left right ∧ angleOf ℝ left right < 90 := by
    have hres : ((X_RESOLUTION : ℤ) : ℝ) = 640 := by norm_num [X_RESOLUTION]
    simp only [angleOf, DEGREES_PER_PIXEL, hres]
    generalize ((left + right : ℤ) : ℝ) = middle at hmin' hmax' ⊢
    constructor <;> norm_num <;> linarith
  have hquarter : Java.toRadians (-45 : ℝ) = -(Real.pi / 4) := by
    rw [toRadians_eq]
    ring
  have hlower := toRadians_lt hbounds.1
  have hupper := toRadians_lt hbounds.2
  rw [hquarter] at hlower
  rw [toRadians_right_angle] at hupper
  have htan := Real.tan_lt_tan_of_lt_of_lt_pi_div_two (by linarith [Real.pi_pos]) hupper hlower
  rwa [Real.tan_neg, Real.tan_pi_div_four] at htan

theorem tan_window_lt : Real.tan (Java.toRadians 25.0) < 0.6 := by
  have hsixth : Java.toRadians (30 : ℝ) = Real.pi / 6 := by
    rw [toRadians_eq]
    ring
  have hless : Java.toRadians (25.0 : ℝ) < Real.pi / 6 := hsixth ▸ toRadians_lt (by norm_num)
  have hpos : -(Real.pi / 2) < Java.toRadians (25.0 : ℝ) := by
    rw [toRadians_eq]
    linarith [Real.pi_pos]
  have htan := Real.tan_lt_tan_of_lt_of_lt_pi_div_two hpos (by linarith [Real.pi_pos]) hless
  rw [Real.tan_pi_div_six] at htan
  have hroot : 5 / 3 ≤ √(3 : ℝ) := Real.le_sqrt_of_sq_le (by norm_num)
  have hinv : 1 / √(3 : ℝ) ≤ 1 / (5 / 3) := one_div_le_one_div_of_le (by norm_num) hroot
  apply htan.trans_le (hinv.trans _)
  norm_num

/-- Within the picture no angle makes up for the offset of the camera. -/
theorem not_withinWindow {left right : ℤ} (hmin : 0 ≤ left + right)
    (hmax : left + right ≤ 2 * X_RESOLUTION) : ¬ WithinWindow left right := by
  intro hwindow
  have hoffset := (le_abs_self _).trans hwindow
  have htan := tan_angleOf_gt hmin hmax
  have hbound := tan_window_lt
  unfold correctedOffset at hoffset
  norm_num at hoffset hbound
  linarith

/-- What passes the border checks in a picture has its edges in it. -/
theorem InPicture.edges {r : Rect} (h : InPicture r) (husable : isUsable r = true) :
    0 ≤ r.tl.1 ∧ r.tl.1 ≤ r.br.1 ∧ r.br.1 ≤ X_RESOLUTION := by
  obtain ⟨hx, hwidth, hlt⟩ := h
  have hchecks := of_decide_eq_true husable
  simp only [toUnsigned, Rect.tl, Rect.br, X_RESOLUTION] at hchecks ⊢
  omega

/-- No peg in a picture is ever delivered. -/
theorem not_delivered_of_inPicture {rectangles : List Rect} (h : Reported rectangles)
    (hp : ∀ r ∈ rectangles, InPicture r) : ¬ PegDelivered rectangles := by
  obtain ⟨left, right, ⟨⟨l, hl, hlusable, rfl⟩, hleast⟩, ⟨⟨r, hr, hrusable, rfl⟩, -⟩,
    hdelivered⟩ := exists_edges h
  obtain ⟨hleft, -, -⟩ := (hp l hl).edges hlusable
  obtain ⟨hright, hwidth, hborder⟩ := (hp r hr).edges hrusable
  have hfirst : l.tl.1 ≤ r.tl.1 := hleast ⟨r, hr, hrusable, rfl⟩
  rw [hdelivered]
  apply not_withinWindow
  · omega
  · omega

end Picture

/-- Two strips of tape, seen straight ahead. -/
def twoStrips : List Rect := [⟨300, 200, 10, 40⟩, ⟨330, 200, 10, 40⟩]

theorem twoStrips_reported : Reported twoStrips := by
  have hchosen : twoStrips.zipIdx.foldl consider {} =
      ⟨some (⟨300, 200, 10, 40⟩, 0), some (⟨330, 200, 10, 40⟩, 1)⟩ := rfl
  have hdata : GetTargetData ℝ twoStrips = ⟨angleOf ℝ 300 340, 1.0⟩ := by
    rw [GetTargetData, hchosen]
    exact if_pos (by decide)
  rw [Reported, hdata]
  refine ⟨?_, rfl⟩
  norm_num [angleOf, X_RESOLUTION]

theorem twoStrips_delivered_iff : Reported twoStrips ∧ (PegDelivered twoStrips ↔
    ∃ left right, IsLeast (leftEdges twoStrips) left ∧
      IsGreatest (rightEdges twoStrips) right ∧ WithinWindow left right) :=
  ⟨twoStrips_reported, peg_delivered_iff twoStrips_reported⟩

/-- The robot never hears of them. -/
theorem twoStrips_not_delivered :
    ¬ ∀ rectangles, Reported rectangles → PegDelivered rectangles := by
  intro hall
  have hp : ∀ r ∈ twoStrips, InPicture r := by
    simp [twoStrips, InPicture]
  exact not_delivered_of_inPicture twoStrips_reported hp (hall _ twoStrips_reported)

end SparxRobot.Vision
