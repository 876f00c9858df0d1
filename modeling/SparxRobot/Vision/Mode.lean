import SparxRobot.Java.Long
import SparxRobot.Machine.Register
import SparxRobot.Vision.SharedData

/-! The camera's mode: the target others ask for, the copy `Vision` compares it with, and the
entry of the network table, which a send may fail to write. -/
namespace SparxRobot.Vision
open Machine

/-- The fields of `Vision` after `init`, the shared data, and the table's `mode` entry. -/
structure VisionState (R : Type*) [Field R] where
  shared : SharedData R := {}
  reset : Bool := false
  led : Bool := false
  startTime : ℤ := 0
  target : Target := .none
  modeEntry : Option Bool := none

/-- What one iteration finds: the targets set since the last one, in order, the operator's
buttons, and whether `putValue` throws. -/
structure VisionReading where
  requests : List Target := []
  mode : Mode := .autoEnabled
  shootingOnPressed : Bool := false
  boilerShotPressed : Bool := false
  putThrows : Bool := false
  now : ℤ := 0

variable {R : Type*} [Field R]

/-- In operator control the buttons set the target, over any other request. -/
def targetType (r : VisionReading) (current : Target) : Target :=
  if r.mode.isOperatorControl then
    if r.shootingOnPressed && !r.boilerShotPressed then .boiler else .none
  else r.requests.getLastD current

/-- `putValue` under the key `mode`; what it throws is caught. -/
def serverUpdate (r : VisionReading) (s : VisionState R) : VisionState R :=
  if r.putThrows then s
  else { s with modeEntry := some (decide (s.shared.targetType = .lift)) }

/-- The output is the value handed to `putValue`. -/
def execute : Step (VisionState R) VisionReading (Option Bool) := fun s r =>
  let s := { s with
    reset := s.reset || decide (Java.wrapLong (r.now - s.startTime) > 5000)
    shared := { s.shared with targetType := targetType r s.shared.targetType } }
  if s.shared.targetType ≠ s.target then
    let s := serverUpdate r { s with led := decide (s.shared.targetType ≠ .none) }
    let s := { s with target := s.shared.targetType }
    let s := if s.target ≠ .boiler then { s with shared := clearImageData .boiler s.shared } else s
    let s := if s.target ≠ .lift then { s with shared := clearImageData .lift s.shared } else s
    (s, some (decide (s.target = .lift)))
  else (s, none)

abbrev VisionMoment (R : Type*) [Field R] := Moment (VisionState R) VisionReading (Option Bool)

section Observations

/-- The target the iteration finds asked for. -/
def seenTarget (m : VisionMoment R) : Target := targetType m.input m.pre.shared.targetType

/-- The new target, when it is not the one `Vision` had. -/
def newTarget (m : VisionMoment R) : Option Target :=
  if seenTarget m ≠ m.pre.target then some (seenTarget m) else none

/-- The mode of a new target, and whether its send fails. -/
def triedMode (m : VisionMoment R) : Option (Bool × Bool) :=
  (newTarget m).map fun t => (decide (t = .lift), m.input.putThrows)

/-- The mode of a new target whose send does not fail. -/
def storedMode (m : VisionMoment R) : Option Bool :=
  if m.input.putThrows then none else (newTarget m).map fun t => decide (t = .lift)

/-- A target is asked for, between the iterations or by the operator. -/
def Requested (m : VisionMoment R) : Prop :=
  seenTarget m ≠ .none ∨ ∃ t ∈ m.input.requests, t ≠ .none

end Observations

/-- After each iteration whose put would succeed, the entry is the mode of the target, or no
target has been asked for. -/
def ModeFresh (T : List (VisionMoment R)) : Prop :=
  ∀ h m t, T = h ++ m :: t → m.input.putThrows = false →
    m.post.modeEntry = some (decide (m.post.shared.targetType = .lift)) ∨
      ∀ x ∈ h ++ [m], ¬ Requested x

/-- A mode that is not the entry's and whose send failed is sent again, or a newer one is, by
the first iteration whose put would succeed. -/
def FailureResent (T : List (VisionMoment R)) : Prop :=
  ∀ h c during m t, T = h ++ c :: (during ++ m :: t) → ∀ mode, triedMode c = some (mode, true) →
    c.pre.modeEntry ≠ some mode → (∀ x ∈ during, x.input.putThrows = true) →
    m.input.putThrows = false → ∃ x ∈ during ++ [m], x.output ≠ none

/-- Whenever a put would succeed and the target is not new, the latest send did not fail or
tried what is stored anyway; before the first send, no target has been asked for. -/
def FailuresHarmless (T : List (VisionMoment R)) : Prop :=
  ∀ h m t, T = h ++ m :: t → m.input.putThrows = false → newTarget m = none →
    match lastWrite triedMode h with
    | some (mode, failed) => failed = false ∨ lastWrite storedMode h = some mode
    | none => ∀ x ∈ h ++ [m], ¬ Requested x

section Iteration

variable (s : VisionState R) (r : VisionReading)

/-- Clearing the images of a target changes no copy of the target. -/
theorem clearImageData_kept (type : Target) :
    let t := if s.target ≠ type then { s with shared := clearImageData type s.shared } else s
    t.target = s.target ∧ t.shared.targetType = s.shared.targetType ∧
      t.modeEntry = s.modeEntry := by
  intro t
  unfold t
  split
  · refine ⟨rfl, ?_, rfl⟩
    cases type <;> rfl
  · exact ⟨rfl, rfl, rfl⟩

theorem serverUpdate_kept : (serverUpdate r s).shared = s.shared ∧
    (serverUpdate r s).modeEntry =
      if r.putThrows then s.modeEntry else some (decide (s.shared.targetType = .lift)) := by
  unfold serverUpdate
  split <;> exact ⟨rfl, rfl⟩

/-- A new target is committed, and sent as far as the table allows. -/
theorem execute_new (hnew : targetType r s.shared.targetType ≠ s.target) :
    let seen := targetType r s.shared.targetType
    (execute s r).1.target = seen ∧ (execute s r).1.shared.targetType = seen ∧
      (execute s r).1.modeEntry =
        (if r.putThrows then s.modeEntry else some (decide (seen = .lift))) ∧
      (execute s r).2 = some (decide (seen = .lift)) := by
  intro seen
  unfold execute
  extract_lets _ found sent committed cleared final
  rw [if_pos (show found.shared.targetType ≠ found.target from hnew)]
  obtain ⟨hshared, hentry⟩ := serverUpdate_kept { found with led := decide (seen ≠ .none) } r
  obtain ⟨htarget₁, htype₁, hentry₁⟩ := clearImageData_kept committed .boiler
  obtain ⟨htarget₂, htype₂, hentry₂⟩ := clearImageData_kept cleared .lift
  have hseen : committed.target = seen := congrArg SharedData.targetType hshared
  refine ⟨htarget₂.trans (htarget₁.trans hseen), htype₂.trans (htype₁.trans hseen),
    hentry₂.trans (hentry₁.trans hentry), ?_⟩
  rw [show final.target = seen from htarget₂.trans (htarget₁.trans hseen)]

theorem execute_same (hsame : targetType r s.shared.targetType = s.target) :
    (execute s r).1.target = s.target ∧ (execute s r).1.shared.targetType = s.target ∧
      (execute s r).1.modeEntry = s.modeEntry ∧ (execute s r).2 = none := by
  unfold execute
  extract_lets _ found sent committed cleared final
  rw [if_neg (show ¬ found.shared.targetType ≠ found.target from not_not.mpr hsame)]
  exact ⟨rfl, hsame, rfl, rfl⟩

/-- What an iteration does to the copies of the target and to the entry. -/
theorem execute_spec : let m := moment execute s r
    m.post.target = seenTarget m ∧ m.post.shared.targetType = seenTarget m ∧
      m.post.modeEntry = ((storedMode m).map some).getD s.modeEntry ∧
      m.output = (triedMode m).map Prod.fst := by
  intro m
  by_cases hsame : seenTarget m = s.target
  · obtain ⟨htarget, htype, hentry, houtput⟩ := execute_same s r hsame
    have hnew : newTarget m = none := if_neg (not_not.mpr hsame)
    have hstored : storedMode m = none := by simp [storedMode, hnew]
    rw [triedMode, hstored, hnew, hsame]
    exact ⟨htarget, htype, hentry, houtput⟩
  · obtain ⟨htarget, htype, hentry, houtput⟩ := execute_new s r hsame
    have hnew : newTarget m = some (seenTarget m) := if_pos hsame
    have hstored : storedMode m =
        if r.putThrows then none else some (decide (seenTarget m = .lift)) := by
      rw [storedMode, hnew]
      rfl
    rw [triedMode, hstored, hnew]
    refine ⟨htarget, htype, hentry.trans ?_, houtput⟩
    cases r.putThrows <;> rfl

theorem storedMode_eq_none {m : VisionMoment R} (h : newTarget m = none) :
    storedMode m = none := by
  simp [storedMode, h]

theorem triedMode_eq_none {m : VisionMoment R} : triedMode m = none ↔ newTarget m = none := by
  simp [triedMode]

/-- A try that does not fail is stored. -/
theorem storedMode_of_tried {m : VisionMoment R} {mode : Bool}
    (h : triedMode m = some (mode, false)) : storedMode m = some mode := by
  obtain ⟨t, hnew, heq⟩ := Option.map_eq_some_iff.mp h
  obtain ⟨rfl, hput⟩ := Prod.mk.inj heq
  simp [storedMode, hnew, hput]

theorem lastWrite_storedMode_of_tried {h : List (VisionMoment R)} {mode : Bool}
    (htried : lastWrite triedMode h = some (mode, false)) :
    lastWrite storedMode h = some mode := by
  induction h using List.reverseRecOn with
  | nil => simp at htried
  | append_singleton h m ih =>
    rw [lastWrite_append_singleton] at htried ⊢
    cases hm : triedMode m with
    | some tried =>
      rw [hm, Option.some_or] at htried
      rw [storedMode_of_tried (hm.trans htried), Option.some_or]
    | none =>
      rw [hm, Option.none_or] at htried
      rw [storedMode_eq_none (triedMode_eq_none.mp hm), Option.none_or, ih htried]

end Iteration

section Run

variable {readings : List VisionReading} {h t : List (VisionMoment R)} {m : VisionMoment R}

/-- The entry is the latest mode that was stored. -/
theorem modeEntry_eq (ht : trace execute ({} : VisionState R) readings = h ++ m :: t) :
    m.pre.modeEntry = lastWrite storedMode h := by
  have hregister : Register execute (fun s : VisionState R => s.modeEntry)
      (fun m => (storedMode m).map some) := fun s r => (execute_spec s r).2.2.1
  have hvalue := hregister.value ht
  rw [lastWrite_map] at hvalue
  rw [hvalue]
  cases lastWrite storedMode h <;> rfl

/-- Whether `Vision` has the lift for its target is what the latest send tried. -/
theorem target_eq (ht : trace execute ({} : VisionState R) readings = h ++ m :: t) :
    decide (m.pre.target = .lift) = ((lastWrite triedMode h).map Prod.fst).getD false := by
  have hregister : Register execute (fun s : VisionState R => decide (s.target = .lift))
      (fun m => (triedMode m).map Prod.fst) := by
    intro s r
    obtain ⟨htarget, -⟩ := execute_spec s r
    rw [moment_post] at htarget
    by_cases hnew : seenTarget (moment execute s r) = s.target
    · simp [triedMode, newTarget, htarget, hnew]
    · simp [triedMode, newTarget, htarget, hnew]
  rw [← lastWrite_map]
  exact hregister.value ht

/-- As long as no target is asked for, none is new. -/
theorem not_tried_of_not_requested
    (ht : trace execute ({} : VisionState R) readings = h ++ m :: t)
    (hnone : ∀ x ∈ h, ¬ Requested x) : lastWrite triedMode h = none := by
  let Inv : List (VisionMoment R) → VisionState R → Prop := fun h s =>
    (∀ x ∈ h, ¬ Requested x) → s.target = .none ∧ lastWrite triedMode h = none
  have hstep : ∀ h s r, Inv h s → True → Inv (h ++ [moment execute s r]) (execute s r).1 := by
    intro h s r hinv _ hnone
    obtain ⟨htarget, hlast⟩ := hinv fun x hx => hnone x (List.mem_append_left _ hx)
    have hquiet : seenTarget (moment execute s r) = .none := by
      by_contra hseen
      exact hnone _ (by simp) (.inl hseen)
    refine ⟨(execute_spec s r).1.trans hquiet, ?_⟩
    rw [lastWrite_append_singleton, hlast, Option.or_none, triedMode_eq_none]
    simp [newTarget, hquiet, htarget]
  obtain ⟨hinv, -⟩ := history_invariant hstep (show Inv [] {} from fun _ => ⟨rfl, rfl⟩)
    fun (_ : VisionMoment R) _ => trivial
  exact (hinv h m t ht hnone).2

/-- What the iteration leaves in the entry when its put would succeed, and what it leaves in
the shared data. -/
theorem post_of_split (ht : trace execute ({} : VisionState R) readings = h ++ m :: t) :
    m.post.shared.targetType = seenTarget m ∧
      m.post.modeEntry = (storedMode m).or (lastWrite storedMode h) := by
  obtain ⟨hm, -⟩ := trace_after ht
  have hspec := execute_spec m.pre m.input
  rw [← hm] at hspec
  obtain ⟨-, htype, hentry, -⟩ := hspec
  refine ⟨htype, ?_⟩
  rw [hentry, modeEntry_eq ht]
  cases storedMode m <;> rfl

theorem seenTarget_of_not_new (hnew : newTarget m = none) : seenTarget m = m.pre.target := by
  simpa [newTarget] using hnew

/-- An iteration whose put would succeed leaves a fresh entry exactly when it sends a new
target or no failure before it does harm. -/
theorem fresh_at_iff (ht : trace execute ({} : VisionState R) readings = h ++ m :: t)
    (hput : m.input.putThrows = false) :
    (m.post.modeEntry = some (decide (m.post.shared.targetType = .lift)) ∨
      ∀ x ∈ h ++ [m], ¬ Requested x) ↔
    (newTarget m = none → match lastWrite triedMode h with
      | some (mode, failed) => failed = false ∨ lastWrite storedMode h = some mode
      | none => ∀ x ∈ h ++ [m], ¬ Requested x) := by
  obtain ⟨htype, hentry⟩ := post_of_split ht
  cases hnew : newTarget m with
  | some target =>
    have hseen : seenTarget m = target := by
      unfold newTarget at hnew
      split at hnew
      · exact Option.some.inj hnew
      · cases hnew
    have hstored : storedMode m = some (decide (target = .lift)) := by
      simp [storedMode, hput, hnew]
    rw [hentry, hstored, htype, hseen]
    simp
  | none =>
    rw [hentry, storedMode_eq_none hnew, Option.none_or, htype, seenTarget_of_not_new hnew,
      target_eq ht]
    cases hl : lastWrite triedMode h with
    | none =>
      have hunstored : lastWrite storedMode h = none := by
        rw [lastWrite_eq_none] at hl ⊢
        exact fun x hx => storedMode_eq_none (triedMode_eq_none.mp (hl x hx))
      simp [hunstored]
    | some tried =>
      obtain ⟨mode, failed⟩ := tried
      have hrequested : ¬ ∀ x ∈ h ++ [m], ¬ Requested x := by
        intro hnone
        have hquiet := not_tried_of_not_requested ht
          fun x hx => hnone x (List.mem_append_left _ hx)
        rw [hl] at hquiet
        cases hquiet
      simp only [hrequested, or_false, Option.map_some, Option.getD_some, forall_const]
      constructor
      · exact .inr
      · rintro (rfl | hstored)
        · exact lastWrite_storedMode_of_tried hl
        · exact hstored

/-- While no failure does harm, every failed send is made good. -/
theorem FailuresHarmless.resent
    (hok : FailuresHarmless (trace execute ({} : VisionState R) readings)) :
    FailureResent (trace execute ({} : VisionState R) readings) := by
  intro h c during m t ht mode htried hstale _ hput
  by_contra hsilent
  push Not at hsilent
  have hquiet : ∀ x ∈ during ++ [m], newTarget x = none := by
    intro x hx
    have hmem : x ∈ trace execute ({} : VisionState R) readings := by
      rw [ht, List.append_cons during m t]
      exact List.mem_append_right _ (List.mem_cons_of_mem _ (List.mem_append_left _ hx))
    have hspec := execute_spec x.pre x.input
    rw [← eq_moment_of_mem hmem] at hspec
    obtain ⟨-, -, -, houtput⟩ := hspec
    rw [hsilent x hx, eq_comm, Option.map_eq_none_iff] at houtput
    exact triedMode_eq_none.mp houtput
  have hduring : ∀ x ∈ during, newTarget x = none := fun x hx =>
    hquiet x (List.mem_append_left _ hx)
  have hsplit : trace execute ({} : VisionState R) readings =
      (h ++ [c] ++ during) ++ m :: t := by simp [ht]
  have hharmless := hok _ m t hsplit hput (hquiet m (by simp))
  have hthrows : c.input.putThrows = true := by
    obtain ⟨_, -, heq⟩ := Option.map_eq_some_iff.mp htried
    exact (Prod.mk.inj heq).2
  have hlast : lastWrite triedMode (h ++ [c] ++ during) = some (mode, true) := by
    rw [lastWrite_append_of_none _ fun x hx => triedMode_eq_none.mpr (hduring x hx),
      lastWrite_append_singleton, htried, Option.some_or]
  have hstored : lastWrite storedMode (h ++ [c] ++ during) = c.pre.modeEntry := by
    rw [lastWrite_append_of_none _ fun x hx => storedMode_eq_none (hduring x hx),
      lastWrite_append_singleton, show storedMode c = none by simp [storedMode, hthrows],
      Option.none_or, modeEntry_eq ht]
  rw [hlast, hstored] at hharmless
  simp [hstale] at hharmless

/-- Over every run from `init`, the mode is never left stale by a failed send, and failed
sends are made good, exactly when no failure does harm. -/
theorem mode_never_stale_iff (readings : List VisionReading) :
    (ModeFresh (trace execute ({} : VisionState R) readings) ∧
      FailureResent (trace execute ({} : VisionState R) readings)) ↔
      FailuresHarmless (trace execute ({} : VisionState R) readings) := by
  have hfresh : ModeFresh (trace execute ({} : VisionState R) readings) ↔
      FailuresHarmless (trace execute ({} : VisionState R) readings) :=
    forall₅_congr fun h m t ht hput => fresh_at_iff ht hput
  constructor
  · rintro ⟨hall, -⟩
    exact hfresh.mp hall
  · intro hok
    exact ⟨hfresh.mpr hok, hok.resent⟩

/-- The lift is asked for while the table cannot be written, and then it can. -/
def failedSend : List VisionReading := [{ requests := [.lift], putThrows := true }, {}]

/-- Nothing is sent when it could be. -/
theorem failedSend_forgotten : ¬ ∀ readings,
    ModeFresh (trace execute ({} : VisionState ℚ) readings) ∧
      FailureResent (trace execute ({} : VisionState ℚ) readings) := by
  intro hall
  obtain ⟨hfresh, -⟩ := hall failedSend
  rcases hfresh [_] _ [] rfl rfl with hentry | hnone
  · exact absurd hentry (by decide)
  · exact hnone _ List.mem_cons_self (.inl (by decide))

end Run

end SparxRobot.Vision
