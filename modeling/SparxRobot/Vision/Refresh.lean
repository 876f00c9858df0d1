import Mathlib.Algebra.Order.Ring.Rat
import Mathlib.Tactic.Linarith
import SparxRobot.Machine.Register
import SparxRobot.Vision.Finder

/-! The refresh entry of the published arrays. Each key has a counter of its own, so that the
table's listeners hear of every frame, also where angle and distance are what they were. -/
namespace SparxRobot.Vision.MasterControl
open Machine

abbrev MasterControlMoment (R : Type*) [Field R] :=
  Moment (MasterControlState R) (MasterControlEvent R) (Option (String × List R))

/-- The array a moment puts under a key. -/
def publishedUnder {R : Type*} [Field R] (key : String) (m : MasterControlMoment R) :
    Option (List R) :=
  m.output.bind fun o => if o.1 = key then some o.2 else none

/-- What the table has under a key after a history. -/
def stored {R : Type*} [Field R] (key : String) (h : List (MasterControlMoment R)) :
    Option (List R) :=
  lastWrite (publishedUnder key) h

/-- The key and the counter of a target. -/
def keyOf (peg : Bool) : String := if peg then PEG_KEY else HIGH_GOAL_KEY

def refreshOf {R : Type*} [Field R] (peg : Bool) (s : MasterControlState R) : R :=
  if peg then s.pegRefresh else s.highGoalRefresh

/-- The counter is a whole number of frames that does not pass the limit. -/
def IsCount {R : Type*} [Field R] (refresh : R) : Prop := ∃ n : ℕ, n ≤ 10000 ∧ refresh = n

/-- A frame of one target moves its counter, to a count again, and not the other's. -/
def CountsApart {R : Type*} [Field R] (m : MasterControlMoment R) : Prop :=
  ∀ peg, IsCount (refreshOf peg m.pre) ∧ IsCount (refreshOf peg m.post) ∧
    (publishedUnder (keyOf peg) m = none → refreshOf peg m.post = refreshOf peg m.pre)

/-- The target a change of the mode asks for. -/
def modeSet {R : Type*} : MasterControlEvent R → Option Bool
  | .valueChanged key value => if key = MODE_KEY then some value else none
  | .run _ _ => none

/-- Whether the last change of the mode asked for the peg; before the first it is the high
goal. -/
def pegWanted {R : Type*} (events : List (MasterControlEvent R)) : Bool :=
  (lastWrite modeSet events).getD false

/-- Every frame puts one array in the table, the entries of the target that is asked for and a
count under its key, and nothing else does. -/
def EveryFramePublished {R : Type*} [Field R] (T : List (MasterControlMoment R)) : Prop :=
  ∀ h m t, T = h ++ m :: t →
    (∀ pegData highGoalData, m.input = .run pegData highGoalData →
      let peg := pegWanted (h.map Moment.input)
      let data := if peg then pegData else highGoalData
      ∃ refresh : R, IsCount refresh ∧
        m.output = some (keyOf peg, [data.angle, data.distance, refresh])) ∧
      ∀ key value, m.input = .valueChanged key value → m.output = none

/-- Every array that is put in the table differs from the one it has under the key, and does
so in its refresh entry. -/
def EveryFrameNew {R : Type*} [Field R] (T : List (MasterControlMoment R)) : Prop :=
  ∀ h m t, T = h ++ m :: t → ∀ key array, publishedUnder key m = some array →
    ∀ before, stored key h = some before → array ≠ before ∧ array[2]? ≠ before[2]?

section Step

variable {R : Type*} [Field R] [LinearOrder R] (s : MasterControlState R)
  (e : MasterControlEvent R)

/-- What a frame puts in the table: its target's entries, and the counter as it stands. -/
theorem publishedUnder_run (pegData highGoalData : TargetData R) (peg : Bool) :
    publishedUnder (keyOf peg) (moment masterStep s (.run pegData highGoalData)) =
      if s.lookingForPeg = peg then
        let data := if peg then pegData else highGoalData
        some [data.angle, data.distance, refreshOf peg s]
      else none := by
  have hkeys : HIGH_GOAL_KEY ≠ PEG_KEY := by decide
  unfold publishedUnder keyOf refreshOf
  simp only [moment_output, masterStep]
  cases s.lookingForPeg <;> cases peg <;> simp [hkeys, hkeys.symm]

theorem refreshOf_run (pegData highGoalData : TargetData R) (peg : Bool) :
    refreshOf peg (masterStep s (.run pegData highGoalData)).1 =
      if s.lookingForPeg = peg then nextRefresh (refreshOf peg s) else refreshOf peg s := by
  unfold refreshOf
  simp only [masterStep]
  cases s.lookingForPeg <;> cases peg <;> rfl

theorem refreshOf_valueChanged (key : String) (value : Bool) (peg : Bool) :
    refreshOf peg (masterStep s (.valueChanged key value)).1 = refreshOf peg s := by
  by_cases hkey : key = MODE_KEY
  · rw [masterStep, if_pos hkey]
    rfl
  · rw [masterStep, if_neg hkey]

/-- What the counter is after an array has been put in the table. -/
def nextAfter (array : List R) : R := nextRefresh (array[2]?.getD 0)

/-- The counter of a target holds what comes after the array last put under its key. -/
theorem refreshOf_register (peg : Bool) : Register (masterStep (R := R)) (refreshOf peg)
    (fun m => (publishedUnder (keyOf peg) m).map nextAfter) := by
  intro s e
  cases e with
  | run pegData highGoalData =>
    simp only [refreshOf_run, publishedUnder_run]
    split <;> rfl
  | valueChanged key value => exact refreshOf_valueChanged s key value peg

end Step

section Count

variable {R : Type*} [Field R] [LinearOrder R] [IsStrictOrderedRing R]

/-- The wrap does not come back to the value it starts from either. -/
theorem nextRefresh_ne (x : R) : nextRefresh x ≠ x := by
  unfold nextRefresh
  split
  · next h =>
    norm_num at h ⊢
    linarith
  · norm_num

theorem nextRefresh_isCount {x : R} (h : IsCount x) : IsCount (nextRefresh x) := by
  obtain ⟨n, hn, rfl⟩ := h
  unfold nextRefresh
  split
  · exact ⟨0, by norm_num, by norm_num⟩
  · next hless =>
    have hlt : n < 10000 := by
      norm_num at hless
      exact hless
    refine ⟨n + 1, hlt, ?_⟩
    push_cast
    norm_num

theorem masterStep_isCount {s : MasterControlState R} (e : MasterControlEvent R)
    (h : ∀ peg, IsCount (refreshOf peg s)) (peg : Bool) :
    IsCount (refreshOf peg (masterStep s e).1) := by
  cases e with
  | run pegData highGoalData =>
    rw [refreshOf_run]
    split
    · exact nextRefresh_isCount (h peg)
    · exact h peg
  | valueChanged key value =>
    rw [refreshOf_valueChanged]
    exact h peg

end Count

section Run

variable {R : Type*} [Field R] [LinearOrder R]

/-- An array under a key is a frame of the key's target, with its counter at the end. -/
theorem published_cases {s : MasterControlState R} {e : MasterControlEvent R} {key : String}
    {array : List R} (h : publishedUnder key (moment masterStep s e) = some array) :
    ∃ peg, key = keyOf peg ∧ array[2]? = some (refreshOf peg s) := by
  cases e with
  | valueChanged => simp [publishedUnder, masterStep] at h
  | run pegData highGoalData =>
    have hkey : key = keyOf s.lookingForPeg := by
      unfold publishedUnder at h
      simp only [moment_output, masterStep] at h
      unfold keyOf
      cases hp : s.lookingForPeg <;> simp [hp] at h <;> exact h.1.symm
    refine ⟨s.lookingForPeg, hkey, ?_⟩
    rw [hkey, publishedUnder_run, if_pos rfl] at h
    obtain rfl := Option.some.inj h
    rfl

/-- In every run both counters are counts, and frames of the other target do not move them. -/
theorem counts_apart (events : List (MasterControlEvent ℚ)) :
    ∀ m ∈ trace masterStep ({} : MasterControlState ℚ) events, CountsApart m := by
  have hstart : ∀ peg, IsCount (refreshOf peg ({} : MasterControlState ℚ)) := by
    intro peg
    refine ⟨0, by norm_num, ?_⟩
    cases peg <;> simp [refreshOf]
  have hstep : ∀ (s : MasterControlState ℚ) e, (∀ peg, IsCount (refreshOf peg s)) → True →
      ∀ peg, IsCount (refreshOf peg (masterStep s e).1) := fun _ e h _ => masterStep_isCount e h
  obtain ⟨hinv, -⟩ := invariant_of_step hstep hstart fun
    (_ : MasterControlMoment ℚ) (_ : _ ∈ trace masterStep {} events) => trivial
  intro m hm peg
  obtain ⟨hpre, hpost⟩ := hinv m hm
  refine ⟨hpre peg, hpost peg, fun hnone => ?_⟩
  rw [eq_moment_of_mem hm] at hnone ⊢
  refine (refreshOf_register peg m.pre m.input).trans ?_
  simp only [hnone]
  rfl

/-- In every run a frame is a new value of the table. -/
theorem every_frame_new (events : List (MasterControlEvent ℚ)) :
    EveryFrameNew (trace masterStep ({} : MasterControlState ℚ) events) := by
  intro h m t ht key array harray before hbefore
  rw [(trace_after ht).1] at harray
  obtain ⟨peg, rfl, hentry⟩ := published_cases harray
  have hcounter : refreshOf peg m.pre = nextAfter before := by
    rw [(refreshOf_register peg).value ht, lastWrite_map]
    unfold stored at hbefore
    rw [hbefore]
    rfl
  have hdiffer : array[2]? ≠ before[2]? := by
    intro heq
    rw [hentry] at heq
    rw [nextAfter, ← heq] at hcounter
    exact nextRefresh_ne _ hcounter.symm
  exact ⟨fun heq => hdiffer (congrArg (·[2]?) heq), hdiffer⟩

/-- The target looked for is the one that was asked for last. -/
theorem lookingForPeg_register : Register (masterStep (R := R)) (fun s => s.lookingForPeg)
    fun m => modeSet m.input := by
  intro s e
  simp only [moment_input]
  cases e with
  | run pegData highGoalData =>
    unfold masterStep
    cases hp : s.lookingForPeg <;> simp [modeSet, hp]
  | valueChanged key value => by_cases hkey : key = MODE_KEY <;> simp [masterStep, modeSet, hkey]

/-- In every run a frame is put in the table under the key of its target. -/
theorem every_frame_published (events : List (MasterControlEvent ℚ)) :
    EveryFramePublished (trace masterStep ({} : MasterControlState ℚ) events) := by
  intro h m t ht
  have hpeg : m.pre.lookingForPeg = pegWanted (h.map Moment.input) := by
    rw [pegWanted, lastWrite_map_list]
    exact lookingForPeg_register.value ht
  have hmem : m ∈ trace masterStep ({} : MasterControlState ℚ) events := by simp [ht]
  have hcounts := counts_apart events m hmem
  constructor
  · intro pegData highGoalData hrun peg data
    refine ⟨refreshOf peg m.pre, (hcounts peg).1, ?_⟩
    rw [eq_moment_of_mem hmem, hrun]
    simp only [moment_output, masterStep, hpeg, moment_pre]
    unfold data keyOf refreshOf
    cases hp : peg <;> simp [show pegWanted (h.map Moment.input) = _ from hp]
  · intro key value hchanged
    rw [eq_moment_of_mem hmem, hchanged]
    rfl

/-- Over every run of frames and changes of the mode, every frame is put in the table and is a
new value of it, and both counters stay in range and apart. -/
theorem frames_refreshed (events : List (MasterControlEvent ℚ)) :
    EveryFramePublished (trace masterStep ({} : MasterControlState ℚ) events) ∧
      EveryFrameNew (trace masterStep ({} : MasterControlState ℚ) events) ∧
      ∀ m ∈ trace masterStep ({} : MasterControlState ℚ) events, CountsApart m :=
  ⟨every_frame_published events, every_frame_new events, counts_apart events⟩

/-- The same picture of the high goal twice, with one of the peg between. -/
def samePictures : List (MasterControlEvent ℚ) :=
  [.run ⟨1, 2⟩ ⟨3, 4⟩, .valueChanged MODE_KEY true, .run ⟨1, 2⟩ ⟨3, 4⟩,
    .valueChanged MODE_KEY false, .run ⟨1, 2⟩ ⟨3, 4⟩]

theorem samePictures_refreshed :
    outputs masterStep ({} : MasterControlState ℚ) samePictures =
        [some (HIGH_GOAL_KEY, [3, 4, 0]), none, some (PEG_KEY, [1, 2, 0]), none,
          some (HIGH_GOAL_KEY, [3, 4, 1])] ∧
      EveryFrameNew (trace masterStep ({} : MasterControlState ℚ) samePictures) :=
  ⟨by decide +kernel, (frames_refreshed samePictures).2.1⟩

end Run

end SparxRobot.Vision.MasterControl
