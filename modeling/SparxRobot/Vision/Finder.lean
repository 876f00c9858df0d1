import Mathlib.Data.Int.ConditionallyCompleteOrder
import Mathlib.Data.List.MinMax
import Mathlib.Order.Bounds.Basic
import Mathlib.Tactic.NormNum
import SparxRobot.Machine.Run

/-! The program on the camera's board: it picks rectangles from a picture, turns them into
an angle and a distance, and publishes these. Its ints are taken not to overflow. -/
namespace SparxRobot.Vision
open Machine

structure Rect where
  x : ℤ
  y : ℤ
  width : ℤ
  height : ℤ
  deriving DecidableEq, Repr

def Rect.tl (r : Rect) : ℤ × ℤ := (r.x, r.y)

def Rect.br (r : Rect) : ℤ × ℤ := (r.x + r.width, r.y + r.height)

/-- An int compared with an unsigned int is converted to one. -/
def toUnsigned (n : ℤ) : ℤ := n % 2 ^ 32

def X_RESOLUTION : ℤ := 640
def Y_RESOLUTION : ℤ := 460

structure TargetData (R : Type*) where
  angle : R
  distance : R

section Constants

variable (R : Type*) [Field R]

def DEGREES_PER_PIXEL : R := 0.07984375

/-- The data that says there is no target. -/
def noTarget : TargetData R := ⟨-180.0, -1.0⟩

end Constants

namespace PegFinder

/-- The size and border checks of a rectangle. -/
def isUsable (r : Rect) : Bool :=
  decide (toUnsigned r.height ≥ 28 ∧ toUnsigned r.height ≤ 90 ∧
    toUnsigned r.tl.1 ≥ 2 ∧ toUnsigned r.br.1 ≤ X_RESOLUTION - 2 ∧
    toUnsigned r.tl.2 ≥ 2 ∧ toUnsigned r.br.2 ≤ Y_RESOLUTION - 2)

/-- The two pointers of the loop. A rectangle is told from its equals by its place. -/
structure Chosen where
  leftRectangleToUse : Option (Rect × ℕ) := none
  rightRectangleToUse : Option (Rect × ℕ) := none

def consider (c : Chosen) (p : Rect × ℕ) : Chosen :=
  if isUsable p.1 then
    { leftRectangleToUse := match c.leftRectangleToUse with
        | none => some p
        | some l => if p.1.tl.1 < l.1.tl.1 then some p else some l
      rightRectangleToUse := match c.rightRectangleToUse with
        | none => some p
        | some r => if p.1.br.1 > r.1.br.1 then some p else some r }
  else c

/-- The angle of the middle between two edges. -/
def angleOf (R : Type*) [Field R] (left right : ℤ) : R :=
  (((left + right : ℤ) : R) / 2.0 - (X_RESOLUTION : R) / 2.0) * DEGREES_PER_PIXEL R

/-- A target is reported between the outer edges of two rectangles, always at the same
distance. -/
def GetTargetData (R : Type*) [Field R] (rectangles : List Rect) : TargetData R :=
  match rectangles.zipIdx.foldl consider {} with
  | ⟨some l, some r⟩ =>
      if l.2 ≠ r.2 then ⟨angleOf R l.1.tl.1 r.1.br.1, 1.0⟩ else noTarget R
  | _ => noTarget R

end PegFinder

namespace MasterControl

def HIGH_GOAL_KEY : String := "highGoal"
def PEG_KEY : String := "peg"
def MODE_KEY : String := "mode"

structure MasterControlState (R : Type*) [Field R] where
  pegRefresh : R := 0
  highGoalRefresh : R := 0
  lookingForPeg : Bool := false

/-- One iteration of `Run`, with what either finder finds in the picture it would take, or a
change of a boolean in the table. -/
inductive MasterControlEvent (R : Type*) where
  | run (pegData highGoalData : TargetData R)
  | valueChanged (key : String) (value : Bool)

def nextRefresh {R : Type*} [Field R] [LinearOrder R] (refresh : R) : R :=
  if refresh ≥ 10000.0 then 0.0 else refresh + 1.0

/-- The output is the array that is put in the table, with its key. -/
def masterStep {R : Type*} [Field R] [LinearOrder R] :
    Step (MasterControlState R) (MasterControlEvent R) (Option (String × List R))
  | s, .run pegData highGoalData =>
      if s.lookingForPeg then
        ({ s with pegRefresh := nextRefresh s.pegRefresh },
          some (PEG_KEY, [pegData.angle, pegData.distance, s.pegRefresh]))
      else
        ({ s with highGoalRefresh := nextRefresh s.highGoalRefresh },
          some (HIGH_GOAL_KEY, [highGoalData.angle, highGoalData.distance, s.highGoalRefresh]))
  | s, .valueChanged key value =>
      (if key = MODE_KEY then { s with lookingForPeg := value } else s, none)

end MasterControl

namespace PegFinder

/-- The left edges of the rectangles that pass the checks. -/
def leftEdges (rectangles : List Rect) : Set ℤ :=
  {x | ∃ r ∈ rectangles, isUsable r = true ∧ r.tl.1 = x}

def rightEdges (rectangles : List Rect) : Set ℤ :=
  {x | ∃ r ∈ rectangles, isUsable r = true ∧ r.br.1 = x}

section Choice

variable (rectangles : List Rect)

/-- The rectangles that pass the checks, with their places. -/
def candidates : List (Rect × ℕ) := rectangles.zipIdx.filter fun p => isUsable p.1

/-- Each pointer runs through the candidates by itself. -/
theorem foldl_consider (ps : List (Rect × ℕ)) (c : Chosen) : ps.foldl consider c =
    ⟨(ps.filter fun p => isUsable p.1).foldl (List.argAux fun b l => b.1.tl.1 < l.1.tl.1)
        c.leftRectangleToUse,
      (ps.filter fun p => isUsable p.1).foldl (List.argAux fun b r => r.1.br.1 < b.1.br.1)
        c.rightRectangleToUse⟩ := by
  induction ps generalizing c with
  | nil => rfl
  | cons p ps ih =>
    rw [List.foldl_cons, ih]
    cases hu : isUsable p.1 with
    | false => simp [consider, hu]
    | true =>
      simp only [consider, hu, ↓reduceIte, List.filter_cons_of_pos, List.foldl_cons]
      cases c.leftRectangleToUse <;> cases c.rightRectangleToUse <;> rfl

/-- The loop ends with the first leftmost and the first rightmost candidate. -/
theorem chosen_eq : rectangles.zipIdx.foldl consider {} =
    ⟨(candidates rectangles).argmin fun p => p.1.tl.1,
      (candidates rectangles).argmax fun p => p.1.br.1⟩ :=
  foldl_consider rectangles.zipIdx {}

variable {rectangles}

theorem mem_candidates {r : Rect} :
    (∃ i, (r, i) ∈ candidates rectangles) ↔ r ∈ rectangles ∧ isUsable r = true := by
  have hplace : (∃ i, (r, i) ∈ rectangles.zipIdx) ↔ r ∈ rectangles := by
    simp [List.mem_iff_getElem?]
  simp only [candidates, List.mem_filter, exists_and_right, hplace]

theorem isLeast_of_argmin {l : Rect × ℕ}
    (hl : (candidates rectangles).argmin (fun p => p.1.tl.1) = some l) :
    IsLeast (leftEdges rectangles) l.1.tl.1 := by
  constructor
  · obtain ⟨hmem, husable⟩ := mem_candidates.mp ⟨l.2, List.argmin_mem hl⟩
    exact ⟨l.1, hmem, husable, rfl⟩
  · rintro x ⟨r, hr, husable, rfl⟩
    obtain ⟨i, hi⟩ := mem_candidates.mpr ⟨hr, husable⟩
    exact List.le_of_mem_argmin (f := fun p : Rect × ℕ => p.1.tl.1) hi hl

theorem isGreatest_of_argmax {r : Rect × ℕ}
    (hr : (candidates rectangles).argmax (fun p => p.1.br.1) = some r) :
    IsGreatest (rightEdges rectangles) r.1.br.1 := by
  constructor
  · obtain ⟨hmem, husable⟩ := mem_candidates.mp ⟨r.2, List.argmax_mem hr⟩
    exact ⟨r.1, hmem, husable, rfl⟩
  · rintro x ⟨l, hl, husable, rfl⟩
    obtain ⟨i, hi⟩ := mem_candidates.mpr ⟨hl, husable⟩
    exact List.le_of_mem_argmax (f := fun p : Rect × ℕ => p.1.br.1) hi hr

/-- A reported target lies between the outermost edges. -/
theorem GetTargetData_reported {R : Type*} [Field R] [CharZero R]
    (h : (GetTargetData R rectangles).distance = 1.0) :
    ∃ left right, IsLeast (leftEdges rectangles) left ∧
      IsGreatest (rightEdges rectangles) right ∧
      GetTargetData R rectangles = ⟨angleOf R left right, 1.0⟩ := by
  have hnone : (noTarget R).distance ≠ 1.0 := by
    simp only [noTarget]
    norm_num
  unfold GetTargetData at h ⊢
  rw [chosen_eq] at h ⊢
  cases hl : (candidates rectangles).argmin fun p => p.1.tl.1 with
  | none =>
    rw [hl] at h
    exact absurd h hnone
  | some l =>
    cases hr : (candidates rectangles).argmax fun p => p.1.br.1 with
    | none =>
      rw [hl, hr] at h
      exact absurd h hnone
    | some r =>
      rw [hl, hr] at h
      refine ⟨_, _, isLeast_of_argmin hl, isGreatest_of_argmax hr, ?_⟩
      by_cases hplaces : l.2 ≠ r.2
      · exact if_pos hplaces
      · simp only [if_neg hplaces] at h
        exact absurd h hnone

end Choice

end PegFinder

end SparxRobot.Vision
