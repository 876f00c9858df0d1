import SparxRobot.BallAcq.Operator

/-! The operator's presses and the belts. Each of the four presses is meant to put the feed
system into one configuration; the press that starts the acquisition leaves the horizontal
belt as it is. -/
namespace SparxRobot.BallAcq
open Machine

/-- An iteration of the ball acquisition, without an answer. -/
def ballAcqStep : Step BallAcqState BallAcqReading Unit := fun s r => (execute r s, ())

abbrev BallAcqMoment := Moment BallAcqState BallAcqReading Unit

def BallAcqReading.answers (r : BallAcqReading) : Press → Bool
  | .acqOn => r.acqOn
  | .feedRight => r.feedRight
  | .acqOff => r.acqOff
  | .feedLeft => r.feedLeft

/-- An iteration in enabled operator control that finds one press at most. -/
structure OnePress (r : BallAcqReading) : Prop where
  operator : InOperatorControl r.mode
  one : ∀ d e, r.answers d = true → r.answers e = true → d = e

/-- The configuration a press stands for. -/
def preset : Press → State × BeltState × HorizontalBeltState
  | .acqOn => (.forward, .standby, .standby)
  | .feedRight => (.shooting, .forward, .right)
  | .acqOff => (.standby, .standby, .standby)
  | .feedLeft => (.shooting, .reverse, .left)

/-- The horizontal belt is on its way or commanded to turn only while shooting. -/
def FeedsShooting (s : BallAcqState) : Prop :=
  s.currentHorizontalBeltState ≠ .standby ∨ s.horizontalBeltMotor ≠ 0 →
    s.currentAcqStatus = .shooting

/-- A press of the iteration decides the configuration, and the belt feeds nothing but shots. -/
def PressDecides (m : BallAcqMoment) : Prop :=
  (∀ d, m.input.answers d = true → settings (setAcqState m.input m.pre) = preset d) ∧
    FeedsShooting m.post

/-- The iteration does not start the acquisition under a running horizontal belt. -/
def StartsUnderStillBelt (m : BallAcqMoment) : Prop :=
  m.input.acqOn = true → m.pre.currentHorizontalBeltState = .standby

/-- The horizontal belt stands, or is on its way for a shot. -/
def Clean (s : BallAcqState) : Prop :=
  s.currentHorizontalBeltState = .standby ∨ s.currentAcqStatus = .shooting

/-- The run starts with a press, or from a clean state. -/
def StartsClean (s : BallAcqState) (rs : List BallAcqReading) : Prop :=
  ∀ r ∈ rs.head?, (∀ d, r.answers d = false) → Clean s

section Step

variable {r : BallAcqReading} {s : BallAcqState}

/-- After `setAcqState` an iteration moves the vertical belt alone. -/
theorem execute_settings (r : BallAcqReading) (s : BallAcqState) :
    (execute r s).currentAcqStatus = (setAcqState r s).currentAcqStatus ∧
      (execute r s).currentHorizontalBeltState = (setAcqState r s).currentHorizontalBeltState := by
  unfold execute drive runAcq runBelt
  cases (setAcqState r s).currentAcqStatus <;> cases (setAcqState r s).currentBeltState <;>
    exact ⟨rfl, rfl⟩

theorem execute_horizontalBeltMotor (r : BallAcqReading) (s : BallAcqState)
    (h : (execute r s).currentHorizontalBeltState = .standby) :
    (execute r s).horizontalBeltMotor = 0 := by
  have hbelt : (execute r s).horizontalBeltMotor =
      horizontalSpeed (execute r s).currentHorizontalBeltState
        (runAcq r (setAcqState r s)).wantedBeltSpeed := rfl
  rw [hbelt, h]
  rfl

theorem clean_execute : Clean (execute r s) ↔ Clean (setAcqState r s) := by
  obtain ⟨hacq, hbelt⟩ := execute_settings r s
  unfold Clean
  rw [hacq, hbelt]

/-- At the end of an iteration the motor of a clean belt feeds nothing but shots. -/
theorem feedsShooting_execute : FeedsShooting (execute r s) ↔ Clean (setAcqState r s) := by
  rw [← clean_execute]
  unfold FeedsShooting Clean
  constructor
  · intro h
    by_cases hstand : (execute r s).currentHorizontalBeltState = .standby
    · exact .inl hstand
    · exact .inr (h (.inl hstand))
  · rintro (hstand | hshoot) hruns
    · have hmoves := hruns.resolve_left (not_not.mpr hstand)
      exact absurd (execute_horizontalBeltMotor r s hstand) hmoves
    · exact hshoot

/-- What `setAcqState` does on a press: the three assignments, but for the horizontal belt
when the acquisition is started. -/
theorem settings_of_press (hr : OnePress r) {d : Press} (hd : r.answers d = true) :
    settings (setAcqState r s) =
      match d with
      | .acqOn => (.forward, .standby, s.currentHorizontalBeltState)
      | _ => preset d := by
  have hother : ∀ e, e ≠ d → r.answers e = false := by
    intro e he
    by_contra hcon
    exact he (hr.one e d (Bool.of_not_eq_false hcon) hd)
  obtain ⟨hdisabled, hoperator⟩ := hr.operator
  unfold setAcqState
  rw [hdisabled, hoperator]
  cases d with
  | acqOn =>
    have hon : r.acqOn = true := hd
    simp [hon, settings]
  | feedRight =>
    have hon : r.acqOn = false := hother .acqOn (by decide)
    have hright : r.feedRight = true := hd
    simp [hon, hright, settings, preset]
  | acqOff =>
    have hon : r.acqOn = false := hother .acqOn (by decide)
    have hright : r.feedRight = false := hother .feedRight (by decide)
    have hoff : r.acqOff = true := hd
    simp [hon, hright, hoff, settings, preset]
  | feedLeft =>
    have hon : r.acqOn = false := hother .acqOn (by decide)
    have hright : r.feedRight = false := hother .feedRight (by decide)
    have hoff : r.acqOff = false := hother .acqOff (by decide)
    have hleft : r.feedLeft = true := hd
    simp [hon, hright, hoff, hleft, settings, preset]

theorem setAcqState_of_no_press (hr : OnePress r) (hnone : ∀ d, r.answers d = false) :
    setAcqState r s = s := by
  obtain ⟨hdisabled, hoperator⟩ := hr.operator
  have hon : r.acqOn = false := hnone .acqOn
  have hright : r.feedRight = false := hnone .feedRight
  have hoff : r.acqOff = false := hnone .acqOff
  have hleft : r.feedLeft = false := hnone .feedLeft
  simp [setAcqState, hdisabled, hoperator, hon, hright, hoff, hleft]

/-- An iteration with a press is right exactly when it does not start the acquisition under a
running belt, and one without a press when it finds a clean state. -/
theorem pressDecides_iff (hr : OnePress r) : PressDecides (moment ballAcqStep s r) ↔
    StartsUnderStillBelt (moment ballAcqStep s r) ∧ ((∀ d, r.answers d = false) → Clean s) := by
  have hpost : (moment ballAcqStep s r).post = execute r s := rfl
  simp only [PressDecides, StartsUnderStillBelt, moment_input, moment_pre, hpost,
    feedsShooting_execute]
  by_cases hnone : ∀ d, r.answers d = false
  · have hon : r.acqOn = false := hnone .acqOn
    simp [hnone, hon, setAcqState_of_no_press hr hnone]
  · push Not at hnone
    obtain ⟨d, hd⟩ := hnone
    rw [Bool.ne_false_iff] at hd
    have hsettings := settings_of_press (s := s) hr hd
    have honly : ∀ e, r.answers e = true ↔ e = d :=
      fun e => ⟨fun he => hr.one e d he hd, fun he => he ▸ hd⟩
    have hnot : ¬ ∀ d, r.answers d = false := fun h => Bool.false_ne_true ((h d).symm.trans hd)
    simp only [honly, forall_eq, hnot, false_implies, and_true]
    have hon : r.acqOn = true ↔ Press.acqOn = d := honly .acqOn
    rw [hon, hsettings]
    obtain ⟨hacq, hrest⟩ := Prod.mk.inj hsettings
    obtain ⟨-, hbelt⟩ := Prod.mk.inj hrest
    unfold Clean
    cases d <;> simp_all [preset]

end Step

section Run

variable {s : BallAcqState} {rs : List BallAcqReading}

theorem clean_of_pressDecides {m : BallAcqMoment} (h : PressDecides m) : Clean m.post := by
  by_cases hstand : m.post.currentHorizontalBeltState = .standby
  · exact .inl hstand
  · exact .inr (h.2 (.inl hstand))

/-- From a clean state every iteration that is right leaves one. -/
theorem press_decides_of_clean (hs : Clean s) (hrs : ∀ r ∈ rs, OnePress r) :
    (∀ m ∈ trace ballAcqStep s rs, PressDecides m) ↔
      ∀ m ∈ trace ballAcqStep s rs, StartsUnderStillBelt m := by
  have hiff : ∀ s r, OnePress r → Clean s → (PressDecides (moment ballAcqStep s r) ↔
      StartsUnderStillBelt (moment ballAcqStep s r)) := by
    intro s r hr hclean
    rw [pressDecides_iff hr]
    exact and_iff_left fun _ => hclean
  refine forall_trace_iff hiff ?_ hs hrs
  intro s r hr hclean hstill
  exact clean_of_pressDecides ((hiff s r hr hclean).mpr hstill)

/-- Over every run of iterations in enabled operator control, with one press at most in each
and from any state, the last press decides the feed system exactly when the acquisition is
never started under a running horizontal belt and the run starts clean. -/
theorem press_decides_iff (s : BallAcqState) (rs : List BallAcqReading)
    (hrs : ∀ r ∈ rs, OnePress r) :
    (∀ m ∈ trace ballAcqStep s rs, PressDecides m) ↔
      (∀ m ∈ trace ballAcqStep s rs, StartsUnderStillBelt m) ∧ StartsClean s rs := by
  cases rs with
  | nil => simp [trace, StartsClean]
  | cons r rs =>
    obtain ⟨hr, hrest⟩ := List.forall_mem_cons.mp hrs
    have hfirst := pressDecides_iff (s := s) hr
    simp only [trace, List.forall_mem_cons, StartsClean, List.head?_cons, Option.mem_def,
      Option.some.injEq, forall_eq']
    constructor
    · rintro ⟨hone, hall⟩
      obtain ⟨hstill, hclean⟩ := hfirst.mp hone
      have hpost := clean_of_pressDecides hone
      exact ⟨⟨hstill, (press_decides_of_clean hpost hrest).mp hall⟩, hclean⟩
    · rintro ⟨⟨hstill, hall⟩, hclean⟩
      have hone := hfirst.mpr ⟨hstill, hclean⟩
      have hpost := clean_of_pressDecides hone
      exact ⟨hone, (press_decides_of_clean hpost hrest).mpr hall⟩

/-- The iterations of the operated machine find one press at most: the one they answered. -/
theorem readPress_onePress {mode : Mode} (hmode : InOperatorControl mode) (now : ℤ)
    (d : Option Press) : OnePress (readPress mode now d) := by
  have hanswers : ∀ e, (readPress mode now d).answers e = true → d = some e := by
    intro e he
    cases e <;> exact of_decide_eq_true he
  refine ⟨hmode, fun e f he hf => ?_⟩
  exact Option.some.inj ((hanswers e he).symm.trans (hanswers f hf))

/-- The left bin is emptied, then the acquisition is started. -/
def acquireAfterFeeding : List BallAcqReading :=
  [readPress .teleopEnabled 0 (some .feedLeft), readPress .teleopEnabled 20 (some .acqOn)]

theorem acquireAfterFeeding_onePress : ∀ r ∈ acquireAfterFeeding, OnePress r := by
  intro r hr
  rcases List.mem_pair.mp hr with rfl | rfl
  · exact readPress_onePress (by decide) _ _
  · exact readPress_onePress (by decide) _ _

theorem press_decides_iff_acquireAfterFeeding :
    (∀ m ∈ trace ballAcqStep {} acquireAfterFeeding, PressDecides m) ↔
      (∀ m ∈ trace ballAcqStep {} acquireAfterFeeding, StartsUnderStillBelt m) ∧
        StartsClean {} acquireAfterFeeding :=
  press_decides_iff _ _ acquireAfterFeeding_onePress

/-- The horizontal belt goes on emptying the bin while balls are acquired. -/
theorem acquireAfterFeeding_feeds :
    ¬ ∀ rs, (∀ r ∈ rs, OnePress r) → ∀ m ∈ trace ballAcqStep {} rs, PressDecides m := by
  intro hall
  have hlast := hall acquireAfterFeeding acquireAfterFeeding_onePress _ (.tail _ (.head _))
  exact absurd (hlast.1 .acqOn rfl) (by decide +kernel)

end Run

end SparxRobot.BallAcq
