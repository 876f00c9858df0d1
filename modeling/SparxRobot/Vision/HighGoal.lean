import Mathlib.Tactic.Linarith
import SparxRobot.Vision.Finder
import SparxRobot.Vision.Table

/-! The high goal in the picture: the topmost rectangle that passes the checks, its angle, and
its distance by either of two formulas. The robot tells a target from none by two sentinels. -/
namespace SparxRobot.Vision

namespace HighGoalFinder

section Distances

variable (R : Type*) [Field R]

def CalculateQuadraticDistance (maxY : ℤ) : R :=
  0.000197138007 * (maxY : R) ^ 2 + 0.084058888 * maxY + 32.021895

/-- The rows a target is in up to each limit, with its distance. -/
def lookupLimits : List (ℤ × R) :=
  [(106, 41.5), (127, 44.5), (149, 47.5), (169, 50.5), (188, 53.5), (206, 56.5), (224, 59.5),
    (241, 62.5), (258, 65.5), (275, 68.5), (292, 71.5), (306, 74.5), (320, 77.5), (335, 80.5),
    (349, 83.5), (362, 86.5), (374, 89.5), (384, 92.5), (395, 95.5), (408, 98.5), (424, 101.5),
    (437, 104.5), (443, 107.5)]

/-- The chain of comparisons of the source: the first limit that is not passed. -/
def CalculateLookupDistance (maxY : ℤ) : R :=
  match (lookupLimits R).find? fun limit => maxY ≤ limit.1 with
  | some limit => limit.2
  | none => -1.0

end Distances

/-- The size and border checks of a rectangle. -/
def isUsable (r : Rect) : Bool :=
  decide (toUnsigned r.width ≥ 50 ∧ toUnsigned r.width ≤ 100 ∧
    toUnsigned r.height ≥ 12 ∧ toUnsigned r.height ≤ 45 ∧
    toUnsigned r.tl.1 ≥ 2 ∧ toUnsigned r.br.1 ≤ X_RESOLUTION - 2 ∧
    toUnsigned r.tl.2 ≥ 2 ∧ toUnsigned r.br.2 ≤ Y_RESOLUTION - 2)

/-- A turn of the loop over the rectangles. -/
def consider (topRectangleToUse : Option Rect) (rectangle : Rect) : Option Rect :=
  if isUsable rectangle then
    match topRectangleToUse with
    | none => some rectangle
    | some top => if rectangle.y < top.y then some rectangle else some top
  else topRectangleToUse

/-- The angle of the middle of a rectangle. -/
def angleOf (R : Type*) [Field R] (r : Rect) : R :=
  (((r.br.1 + r.tl.1 : ℤ) : R) / 2.0 - (X_RESOLUTION : R) / 2.0) * DEGREES_PER_PIXEL R

/-- A target is reported at its rectangle's angle, also where its distance is not known. -/
def GetTargetData (R : Type*) [Field R] (useQuadratic : Bool) (rectangles : List Rect) :
    TargetData R :=
  match rectangles.foldl consider none with
  | some top =>
      let maxY := toUnsigned top.y
      { angle := angleOf R top
        distance :=
          if maxY ≥ 90 ∧ maxY ≤ 443 then
            if useQuadratic then CalculateQuadraticDistance R maxY
            else CalculateLookupDistance R maxY
          else -1.0 }
  | none => noTarget R

/-- A rectangle of non-negative ints. -/
def NonNegative (r : Rect) : Prop :=
  (0 ≤ r.x ∧ r.x < 2147483648) ∧ (0 ≤ r.y ∧ r.y < 2147483648) ∧
    (0 ≤ r.width ∧ r.width < 2147483648) ∧ (0 ≤ r.height ∧ r.height < 2147483648)

/-- A rectangle that passes the checks, none of which passes higher up. -/
def Topmost (rectangles : List Rect) (r : Rect) : Prop :=
  r ∈ rectangles ∧ isUsable r = true ∧ ∀ s ∈ rectangles, isUsable s = true → r.y ≤ s.y

/-- The rows the distance can be told for. -/
def InRange (r : Rect) : Prop := 90 ≤ r.y ∧ r.y ≤ 443

/-- The picture shows a target whose distance can be told. -/
def Rangeable (rectangles : List Rect) : Prop := ∃ r, Topmost rectangles r ∧ InRange r

/-- What the robot stores and shares of the high goal. -/
def sharedHighGoal {R : Type*} [Field R] [LinearOrder R] [JavaMath R] (data : TargetData R)
    (now : ℤ) (s : TableState R) : TableState R :=
  let target := applyOffset (xOffsetBoiler R) (yOffsetBoiler R) data.angle data.distance
  { s with
    boilerDistance := target.1
    boilerAngle := target.2
    shared := setTarget .boiler target.1 target.2 now s.shared }

/-- What the data says of the picture, and what the robot makes of it. -/
structure Reports {R : Type*} [Field R] [LinearOrder R] [JavaMath R] (rectangles : List Rect)
    (data : TargetData R) : Prop where
  none : data = noTarget R ↔ ∀ r ∈ rectangles, isUsable r = false
  top : data ≠ noTarget R → ∃ r, Topmost rectangles r ∧ data.angle = angleOf R r ∧
    |data.angle| < 25.0 ∧ (data.distance = -1.0 ↔ ¬ InRange r) ∧
      (InRange r → 41.0 < data.distance ∧ data.distance < 108.0)
  test : (data.angle ≠ -180.0 ∧ data.distance ≠ -1.0) ↔ Rangeable rectangles
  accepts : Rangeable rectangles → ∀ refresh now s, valueChanged clientHighGoal
    (some [data.angle, data.distance, refresh]) now s = sharedHighGoal data now s
  ignores : ¬ Rangeable rectangles → ∀ refresh now s, valueChanged clientHighGoal
    (some [data.angle, data.distance, refresh]) now s = s

section Choice

variable {rectangles : List Rect} {r s : Rect}

/-- The loop ends with the first topmost rectangle of those that pass the checks. -/
theorem foldl_consider (rectangles : List Rect) (top : Option Rect) :
    rectangles.foldl consider top =
      (rectangles.filter isUsable).foldl (List.argAux fun b c => b.y < c.y) top := by
  induction rectangles generalizing top with
  | nil => rfl
  | cons r rectangles ih =>
    rw [List.foldl_cons, ih]
    cases hu : isUsable r with
    | false => simp [consider, hu]
    | true =>
      simp only [consider, hu, ↓reduceIte, List.filter_cons_of_pos, List.foldl_cons]
      cases top <;> rfl

theorem chosen_eq (rectangles : List Rect) :
    rectangles.foldl consider none = (rectangles.filter isUsable).argmin Rect.y :=
  foldl_consider rectangles none

theorem chosen_eq_none : rectangles.foldl consider none = none ↔
    ∀ r ∈ rectangles, isUsable r = false := by
  rw [chosen_eq, List.argmin_eq_none, List.filter_eq_nil_iff]
  simp only [Bool.not_eq_true]

theorem topmost_of_chosen (h : rectangles.foldl consider none = some r) :
    Topmost rectangles r := by
  rw [chosen_eq] at h
  obtain ⟨hmem, husable⟩ := List.mem_filter.mp (List.argmin_mem h)
  refine ⟨hmem, husable, fun s hs hsusable => ?_⟩
  exact List.le_of_mem_argmin (List.mem_filter.mpr ⟨hs, hsusable⟩) h

/-- All topmost rectangles are in one row. -/
theorem Topmost.y_eq (hr : Topmost rectangles r) (hs : Topmost rectangles s) : r.y = s.y :=
  le_antisymm (hr.2.2 s hs.1 hs.2.1) (hs.2.2 r hr.1 hr.2.1)

theorem rangeable_iff (hr : Topmost rectangles r) : Rangeable rectangles ↔ InRange r := by
  constructor
  · rintro ⟨s, hs, hrange⟩
    unfold InRange
    rwa [hr.y_eq hs]
  · exact fun hrange => ⟨r, hr, hrange⟩

/-- Non-negative ints are what they are converted to. -/
theorem NonNegative.usable (hr : NonNegative r) (hu : isUsable r = true) :
    (50 ≤ r.width ∧ r.width ≤ 100) ∧ 2 ≤ r.x ∧ r.x + r.width ≤ 638 := by
  obtain ⟨hx, hy, hwidth, hheight⟩ := hr
  have hchecks := of_decide_eq_true hu
  simp only [toUnsigned, Rect.tl, Rect.br, X_RESOLUTION] at hchecks
  omega

theorem NonNegative.toUnsigned_y (hr : NonNegative r) : toUnsigned r.y = r.y := by
  unfold toUnsigned
  have hy := hr.2.1
  omega

end Choice

section Data

variable (R : Type*) [Field R] [LinearOrder R] [IsStrictOrderedRing R] {y : ℤ} {r : Rect}

/-- What passes the border checks is seen within 25 degrees. -/
theorem abs_angleOf_lt (hr : NonNegative r) (hu : isUsable r = true) : |angleOf R r| < 25.0 := by
  obtain ⟨⟨hwide, -⟩, hleft, hright⟩ := hr.usable hu
  have hlow : ((54 : ℤ) : R) ≤ ((r.br.1 + r.tl.1 : ℤ) : R) := by
    exact_mod_cast (show (54 : ℤ) ≤ r.x + r.width + r.x by omega)
  have hhigh : ((r.br.1 + r.tl.1 : ℤ) : R) ≤ ((1226 : ℤ) : R) := by
    exact_mod_cast (show r.x + r.width + r.x ≤ (1226 : ℤ) by omega)
  have hres : ((X_RESOLUTION : ℤ) : R) = 640 := by norm_num [X_RESOLUTION]
  rw [abs_lt]
  simp only [angleOf, DEGREES_PER_PIXEL, hres]
  generalize ((r.br.1 + r.tl.1 : ℤ) : R) = middle at hlow hhigh ⊢
  norm_num at hlow hhigh
  constructor <;> norm_num <;> linarith

theorem CalculateQuadraticDistance_mem (hlow : 90 ≤ y) (hhigh : y ≤ 443) :
    41.0 < CalculateQuadraticDistance R y ∧ CalculateQuadraticDistance R y < 108.0 := by
  have hlow' : (90 : R) ≤ y := by exact_mod_cast hlow
  have hhigh' : (y : R) ≤ 443 := by exact_mod_cast hhigh
  unfold CalculateQuadraticDistance
  constructor <;> norm_num <;> nlinarith

theorem CalculateLookupDistance_mem (hhigh : y ≤ 443) :
    41.0 < CalculateLookupDistance R y ∧ CalculateLookupDistance R y < 108.0 := by
  have hall : ∀ limit ∈ lookupLimits R, 41.0 < limit.2 ∧ limit.2 < 108.0 := by
    simp only [lookupLimits, List.forall_mem_cons, List.not_mem_nil, false_implies, implies_true,
      and_true]
    norm_num
  unfold CalculateLookupDistance
  cases hfind : (lookupLimits R).find? fun limit => y ≤ limit.1 with
  | some limit => exact hall limit (List.mem_of_find?_eq_some hfind)
  | none =>
    have hlast := List.find?_eq_none.mp hfind (443, 107.5) (by simp [lookupLimits])
    exact absurd (decide_eq_true hhigh) hlast

end Data

section Reports

variable {R : Type*} [Field R] [LinearOrder R]

/-- The robot's test of an array of the high goal decides whether it is shared. -/
theorem valueChanged_highGoal [JavaMath R] (data : TargetData R) (refresh : R) (now : ℤ)
    (s : TableState R) :
    valueChanged clientHighGoal (some [data.angle, data.distance, refresh]) now s =
      if data.angle ≠ -180.0 ∧ data.distance ≠ -1.0 then sharedHighGoal data now s else s := by
  have hkey : clientHighGoal ≠ clientLift := by decide
  simp only [valueChanged, if_neg hkey, if_true]
  rfl

variable [IsStrictOrderedRing R] {rectangles : List Rect} {r : Rect}

/-- The data of a topmost rectangle. -/
theorem GetTargetData_of_chosen (useQuadratic : Bool) (hr : NonNegative r)
    (hc : rectangles.foldl consider none = some r) :
    (GetTargetData R useQuadratic rectangles).angle = angleOf R r ∧
      (¬ InRange r → (GetTargetData R useQuadratic rectangles).distance = -1.0) ∧
      (InRange r → 41.0 < (GetTargetData R useQuadratic rectangles).distance ∧
        (GetTargetData R useQuadratic rectangles).distance < 108.0) := by
  simp only [GetTargetData, hc, hr.toUnsigned_y, true_and]
  refine ⟨fun hout => if_neg hout, fun hin => ?_⟩
  rw [if_pos (show r.y ≥ 90 ∧ r.y ≤ 443 from hin)]
  cases useQuadratic with
  | true => exact CalculateQuadraticDistance_mem R hin.1 hin.2
  | false => exact CalculateLookupDistance_mem R hin.2

variable [JavaMath R]

/-- Whatever rectangles are found, the data reports the topmost one that passes the checks, and
the robot's sentinels tell exactly whether its distance is known. -/
theorem GetTargetData_reports (useQuadratic : Bool) (rectangles : List Rect)
    (h : ∀ r ∈ rectangles, NonNegative r) :
    Reports rectangles (GetTargetData R useQuadratic rectangles) := by
  cases hc : rectangles.foldl consider none with
  | none =>
    have hnone := chosen_eq_none.mp hc
    have hdata : GetTargetData R useQuadratic rectangles = noTarget R := by
      simp only [GetTargetData, hc]
    have hnot : ¬ Rangeable rectangles := by
      rintro ⟨r, ⟨hmem, husable, -⟩, -⟩
      exact Bool.noConfusion (husable.symm.trans (hnone r hmem))
    rw [hdata]
    refine ⟨iff_of_true rfl hnone, fun hne => absurd rfl hne, iff_of_false ?_ hnot,
      fun hrange => absurd hrange hnot, fun _ refresh now s => ?_⟩
    · exact fun htest => htest.1 rfl
    · rw [valueChanged_highGoal, if_neg fun htest => htest.1 rfl]
  | some r =>
    have htop := topmost_of_chosen hc
    have hr := h r htop.1
    obtain ⟨hangle, hout, hin⟩ := GetTargetData_of_chosen (R := R) useQuadratic hr hc
    have hsmall : |(GetTargetData R useQuadratic rectangles).angle| < 25.0 := by
      rw [hangle]
      exact abs_angleOf_lt R hr htop.2.1
    have hseen : (GetTargetData R useQuadratic rectangles).angle ≠ -180.0 := by
      intro heq
      rw [heq] at hsmall
      norm_num [abs_lt] at hsmall
    have hsentinel : (GetTargetData R useQuadratic rectangles).distance = -1.0 ↔ ¬ InRange r := by
      refine ⟨fun heq hrange => ?_, hout⟩
      have hmore := (hin hrange).1
      rw [heq] at hmore
      norm_num at hmore
    have htest : ((GetTargetData R useQuadratic rectangles).angle ≠ -180.0 ∧
        (GetTargetData R useQuadratic rectangles).distance ≠ -1.0) ↔ Rangeable rectangles := by
      rw [rangeable_iff htop, and_iff_right hseen, Ne, hsentinel, not_not]
    refine ⟨iff_of_false ?_ ?_, fun _ => ⟨r, htop, hangle, hsmall, hsentinel, hin⟩, htest, ?_, ?_⟩
    · exact fun heq => hseen (congrArg TargetData.angle heq)
    · exact fun hnone => Bool.noConfusion (htop.2.1.symm.trans (hnone r htop.1))
    · intro hrange refresh now s
      rw [valueChanged_highGoal, if_pos (htest.mpr hrange)]
    · intro hrange refresh now s
      rw [valueChanged_highGoal, if_neg (mt htest.mp hrange)]

/-- Two stripes of tape on the boiler, the upper one first. -/
def boilerStripes : List Rect := [⟨290, 200, 60, 20⟩, ⟨290, 240, 60, 12⟩]

theorem boilerStripes_reports :
    Reports boilerStripes (GetTargetData ℝ true boilerStripes) := by
  apply GetTargetData_reports
  intro r hr
  rcases List.mem_pair.mp hr with rfl | rfl
  · exact ⟨by decide, by decide, by decide, by decide⟩
  · exact ⟨by decide, by decide, by decide, by decide⟩

end Reports

end HighGoalFinder

end SparxRobot.Vision
