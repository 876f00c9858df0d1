import Mathlib.Data.List.MinMax

/-! The largest contour of a picture, as the robot's own camera program looks for it. The loop
starts from the first contour of the list, which is there to be exceeded and never returned. -/
namespace SparxRobot.Vision.HighGoalVision

abbrev Point := ℤ × ℤ

/-- A contour, by its points. -/
abbrev MatOfPoint := List Point

def SMALLEST_CONTOUR : ℕ := 15
def LARGEST_CONTOUR : ℕ := 600

/-- The variables of the loop. `greatest` is null until a contour is taken. -/
structure Search where
  largest : List Point
  greatest : Option MatOfPoint := none

def consider (s : Search) (contour : MatOfPoint) : Search :=
  let newSize := contour.length
  if newSize > SMALLEST_CONTOUR ∧ newSize < LARGEST_CONTOUR ∧ contour.length > s.largest.length then
    { largest := contour, greatest := some contour }
  else s

/-- The outer option is none where `contour.get(0)` raises. -/
def findLargestContour : List MatOfPoint → Option (Option MatOfPoint)
  | [] => none
  | first :: rest => some (rest.foldl consider { largest := first }).greatest

/-- The sizes a contour may have. -/
def Admissible (c : MatOfPoint) : Prop := SMALLEST_CONTOUR < c.length ∧ c.length < LARGEST_CONTOUR

instance (c : MatOfPoint) : Decidable (Admissible c) := by unfold Admissible; infer_instance

/-- The result is an admissible contour with the most points, or null where there is none. -/
structure IsLargest (contours : List MatOfPoint) (result : Option MatOfPoint) : Prop where
  null : result = none ↔ ∀ c ∈ contours, ¬ Admissible c
  largest : ∀ c, result = some c → c ∈ contours ∧ Admissible c ∧
    ∀ d ∈ contours, Admissible d → d.length ≤ c.length

/-- Where some contour is admissible, one behind the first is and has more points than it. -/
def FirstExceeded (first : MatOfPoint) (rest : List MatOfPoint) : Prop :=
  (∃ c ∈ first :: rest, Admissible c) → ∃ c ∈ rest, Admissible c ∧ first.length < c.length

section Search

variable {first c : MatOfPoint} {rest : List MatOfPoint}

/-- The contours the loop can take. -/
def candidates (first : MatOfPoint) (rest : List MatOfPoint) : List MatOfPoint :=
  rest.filter fun c => Admissible c ∧ first.length < c.length

theorem mem_candidates : c ∈ candidates first rest ↔
    c ∈ rest ∧ Admissible c ∧ first.length < c.length := by simp [candidates]

theorem candidates_cons : candidates first (c :: rest) =
    if Admissible c ∧ first.length < c.length then c :: candidates first rest
    else candidates first rest := by simp [candidates, List.filter_cons]

/-- A candidate goes against the contour taken last. -/
theorem consider_candidate {taken : Option MatOfPoint}
    (hc : Admissible c ∧ first.length < c.length) :
    consider ⟨taken.getD first, taken⟩ c =
      ⟨(List.argAux (fun b d => d.length < b.length) taken c).getD first,
        List.argAux (fun b d => d.length < b.length) taken c⟩ := by
  obtain ⟨⟨hmin, hmax⟩, hmore⟩ := hc
  cases taken with
  | none => simp [consider, List.argAux, hmin, hmax, hmore]
  | some d =>
    simp only [consider, Option.getD_some, gt_iff_lt, hmin, hmax, true_and, List.argAux]
    split <;> rfl

/-- What is no candidate is passed over: it has no more points than the first contour, so not
more than the one taken last either. -/
theorem consider_of_not_candidate {taken : Option MatOfPoint}
    (htaken : ∀ d ∈ taken, first.length < d.length)
    (hc : ¬ (Admissible c ∧ first.length < c.length)) :
    consider ⟨taken.getD first, taken⟩ c = ⟨taken.getD first, taken⟩ := by
  refine if_neg fun hpass => hc ⟨⟨hpass.1, hpass.2.1⟩, ?_⟩
  cases taken with
  | none => exact hpass.2.2
  | some d => exact (htaken d rfl).trans hpass.2.2

/-- The loop ends with the first of the candidates that have the most points. -/
theorem foldl_consider (taken : Option MatOfPoint)
    (htaken : ∀ d ∈ taken, first.length < d.length) :
    (rest.foldl consider ⟨taken.getD first, taken⟩).greatest =
      (candidates first rest).foldl (List.argAux fun b d => d.length < b.length) taken := by
  induction rest generalizing taken with
  | nil => rfl
  | cons c rest ih =>
    rw [List.foldl_cons]
    by_cases hc : Admissible c ∧ first.length < c.length
    · have hnext : ∀ d ∈ List.argAux (fun b d => d.length < b.length) taken c,
          first.length < d.length := by
        intro d hd
        cases taken with
        | none =>
          obtain rfl := Option.mem_some_iff.mp hd
          exact hc.2
        | some e =>
          simp only [List.argAux] at hd
          split at hd
          · obtain rfl := Option.mem_some_iff.mp hd
            exact hc.2
          · exact htaken d hd
      rw [consider_candidate hc, ih _ hnext, candidates_cons, if_pos hc, List.foldl_cons]
    · rw [consider_of_not_candidate htaken hc, ih taken htaken, candidates_cons, if_neg hc]

theorem findLargestContour_eq (first : MatOfPoint) (rest : List MatOfPoint) :
    findLargestContour (first :: rest) = some ((candidates first rest).argmax List.length) :=
  congrArg some (foldl_consider none (by simp))

end Search

section Contours

variable (first : MatOfPoint) (rest : List MatOfPoint)

/-- For every list of contours the search is right exactly when the first contour is exceeded
by an admissible one behind it, or no contour is admissible. -/
theorem findLargestContour_iff :
    (∃ result, findLargestContour (first :: rest) = some result ∧
      IsLargest (first :: rest) result) ↔ FirstExceeded first rest := by
  rw [findLargestContour_eq]
  simp only [Option.some.injEq, exists_eq_left']
  constructor
  · rintro hlargest ⟨c, hc, hadmissible⟩
    have hsome : (candidates first rest).argmax List.length ≠ none :=
      fun hnone => hlargest.null.mp hnone c hc hadmissible
    obtain ⟨g, hg⟩ := Option.ne_none_iff_exists'.mp hsome
    exact ⟨g, mem_candidates.mp (List.argmax_mem hg)⟩
  · intro hexceeded
    constructor
    · rw [List.argmax_eq_none]
      constructor
      · intro hnone c hc hadmissible
        obtain ⟨d, hd⟩ := hexceeded ⟨c, hc, hadmissible⟩
        exact List.not_mem_nil (hnone ▸ mem_candidates.mpr hd)
      · intro hnot
        refine List.eq_nil_iff_forall_not_mem.mpr fun c hc => ?_
        obtain ⟨hrest, hadmissible, -⟩ := mem_candidates.mp hc
        exact hnot c (.tail _ hrest) hadmissible
    · intro c hc
      obtain ⟨hrest, hadmissible, hmore⟩ := mem_candidates.mp (List.argmax_mem hc)
      refine ⟨.tail _ hrest, hadmissible, fun d hd hd' => ?_⟩
      rcases List.mem_cons.mp hd with rfl | hdrest
      · exact hmore.le
      · rcases lt_or_ge first.length d.length with hlt | hge
        · exact List.le_of_mem_argmax (mem_candidates.mpr ⟨hdrest, hd', hlt⟩) hc
        · exact hge.trans hmore.le

/-- A single contour of 16 points is not found. -/
theorem single_not_found : ¬ ∀ first rest, ∃ result,
    findLargestContour (first :: rest) = some result ∧ IsLargest (first :: rest) result := by
  intro hall
  obtain ⟨result, hresult, hlargest⟩ := hall (List.replicate 16 (0, 0)) []
  obtain rfl := Option.some.inj hresult
  exact hlargest.null.mp rfl _ (.head _) (by decide)

end Contours

end SparxRobot.Vision.HighGoalVision
