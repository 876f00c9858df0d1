import SparxRobot.BallAcq.Execute
import SparxRobot.Station.Delivery

/-! The ball acquisition with the presses its operator makes. `update` stores a press in
every mode; an iteration in enabled operator control asks for the four directions in turn
and acts on the first press it has not seen. -/
namespace SparxRobot.BallAcq
open Machine Controls

/-- The commands the four POV directions stand for. -/
inductive Press where
  | acqOn | feedRight | acqOff | feedLeft
  deriving DecidableEq, Repr

def ACQ_ON : ℤ := OP_XBOX_POV_UP
def ACQ_OFF : ℤ := OP_XBOX_POV_DOWN
def ACQ_FEED_RIGHT : ℤ := OP_XBOX_POV_RIGHT
def ACQ_FEED_LEFT : ℤ := OP_XBOX_POV_LEFT

def Press.number : Press → ℤ
  | .acqOn => ACQ_ON
  | .feedRight => ACQ_FEED_RIGHT
  | .acqOff => ACQ_OFF
  | .feedLeft => ACQ_FEED_LEFT

/-- The row of the POV table the direction has. -/
def Press.row : Press → Fin maxPOVs
  | .acqOn => 0
  | .feedRight => 2
  | .acqOff => 4
  | .feedLeft => 6

theorem Press.rowOf_number (d : Press) : rowOf maxPOVs d.number = some d.row := by
  cases d <;> decide

/-- The order of the else-if chain in `setAcqState`. -/
def pollOrder : List Press := [.acqOn, .feedRight, .acqOff, .feedLeft]

/-- Such a chain: the first direction with a new press is answered, the ones after it are
not asked for. -/
def answerFirst : List Press → ControlsState Unit → ControlsState Unit × Option Press
  | [], c => (c, none)
  | d :: ds, c =>
      let o := getPOVRising d.number c
      if o.2 = some true then (o.1, some d) else answerFirst ds o.1

/-- The reading of an iteration in which this press was answered. -/
def readPress (mode : Mode) (now : ℤ) (d : Option Press) : BallAcqReading where
  mode := mode
  acqOn := decide (d = some .acqOn)
  feedRight := decide (d = some .feedRight)
  acqOff := decide (d = some .acqOff)
  feedLeft := decide (d = some .feedLeft)
  now := now

structure OperatedState where
  controls : ControlsState Unit := {}
  ballacq : BallAcqState := {}

/-- An update by any thread and an iteration of `BallAcq`, under what the station reports. -/
inductive OperatedEvent where
  | update (mode : Mode) (r : ControlsReading)
  | execute (mode : Mode) (now : ℤ)

def InOperatorControl (mode : Mode) : Prop :=
  mode.isDisabled = false ∧ mode.isOperatorControl = true

instance (mode : Mode) : Decidable (InOperatorControl mode) := by
  unfold InOperatorControl; infer_instance

/-- The output is the press an iteration answered. -/
def operatedStep : Step OperatedState OperatedEvent (Option Press)
  | s, .update _ r => ({ s with controls := update r s.controls }, none)
  | s, .execute mode now =>
      let o := if InOperatorControl mode then answerFirst pollOrder s.controls
        else (s.controls, none)
      ({ controls := o.1, ballacq := execute (readPress mode now o.2) s.ballacq }, o.2)

abbrev OperatedMoment := Moment OperatedState OperatedEvent (Option Press)

/-- The raw value of a direction that an update processes. -/
def processedPress (d : Press) : OperatedEvent → Option (Bool × ℤ)
  | .update _ r => r.samplePOV d.row
  | .execute _ _ => none

/-- The time at which an event, with those before it, records a press of a direction. -/
def pressRecorded (d : Press) : List OperatedEvent × OperatedEvent → Option ℤ :=
  edgeShown (processedPress d) false .rising

/-- The event is an update made in enabled operator control. -/
def UpdatedInOperatorControl (event : OperatedEvent) : Prop :=
  ∃ mode r, event = .update mode r ∧ InOperatorControl mode

/-- The three states an iteration's presses set. -/
def settings (s : BallAcqState) : State × BeltState × HorizontalBeltState :=
  (s.currentAcqStatus, s.currentBeltState, s.currentHorizontalBeltState)

/-- The moment is an iteration in enabled operator control. -/
def Operates (m : OperatedMoment) : Prop :=
  ∃ mode now, m.input = .execute mode now ∧ InOperatorControl mode

/-- What the iteration's `setAcqState` does to the three states. -/
def settingsAfter (m : OperatedMoment) (d : Option Press) :
    State × BeltState × HorizontalBeltState :=
  match m.input with
  | .execute mode now => settings (setAcqState (readPress mode now d) m.pre.ballacq)
  | _ => settings m.pre.ballacq

/-- An iteration in enabled operator control changes a state on account of a press only if
the press was recorded in enabled operator control. -/
def ActsOnFreshPresses (T : List OperatedMoment) : Prop :=
  ∀ h m t, T = h ++ m :: t → Operates m → settingsAfter m m.output ≠ settings m.pre.ballacq →
    ∃ d x after, m.output = some d ∧
      lastWhere (Rung (pressRecorded d)) (withPast (h.map Moment.input)) = some (x, after) ∧
        UpdatedInOperatorControl x.2

/-- What each press asks for: the acquisition, its belt, and for all but the first the
horizontal belt. -/
def Press.wants : Press → State × BeltState × Option HorizontalBeltState
  | .acqOn => (.forward, .standby, none)
  | .feedRight => (.shooting, .forward, some .right)
  | .acqOff => (.standby, .standby, some .standby)
  | .feedLeft => (.shooting, .reverse, some .left)

/-- The states already are what the press asks for. -/
def AlreadySet (d : Press) (s : BallAcqState) : Prop :=
  s.currentAcqStatus = d.wants.1 ∧ s.currentBeltState = d.wants.2.1 ∧
    ∀ belt ∈ d.wants.2.2, s.currentHorizontalBeltState = belt

/-- A direction has a press that is not seen yet. -/
def unread (c : ControlsState Unit) (d : Press) : Bool :=
  decide (c.POVData d.row .rising < c.POVDataGlobal d.row .rising)

/-- Where the first unread press, in the order asked, was recorded outside enabled operator
control, the states already are what it asks for. -/
def StalePressesHarmless (T : List OperatedMoment) : Prop :=
  ∀ h m t, T = h ++ m :: t → Operates m → ∀ d, pollOrder.find? (unread m.pre.controls) = some d →
    ∀ x after,
      lastWhere (Rung (pressRecorded d)) (withPast (h.map Moment.input)) = some (x, after) →
        ¬ UpdatedInOperatorControl x.2 → AlreadySet d m.pre.ballacq

section Presses

variable (c : ControlsState Unit) (d : Press)

theorem getPOVRising_of_unread (h : unread c d = true) :
    (getPOVRising d.number c).2 = some true :=
  (getPOVEdge_answer .rising d.row c d.rowOf_number).mpr (by simpa [unread] using h)

theorem getPOVRising_of_read (h : unread c d = false) :
    getPOVRising d.number c = (c, some false) := by
  have hn : ¬ c.POVData d.row .rising < c.POVDataGlobal d.row .rising := by simpa [unread] using h
  simp only [getPOVRising, getPOVEdge, d.rowOf_number, if_neg hn]

/-- The chain answers the first unread press. -/
theorem answerFirst_eq (ds : List Press) : answerFirst ds c =
    match ds.find? (unread c) with
    | some d => ((getPOVRising d.number c).1, some d)
    | none => (c, none) := by
  induction ds with
  | nil => rfl
  | cons d ds ih =>
    cases hd : unread c d with
    | true => simp [answerFirst, getPOVRising_of_unread c d hd, hd]
    | false => simp [answerFirst, getPOVRising_of_read c d hd, hd, ih]

theorem answerFirst_POVDataGlobal (ds : List Press) :
    (answerFirst ds c).1.POVDataGlobal = c.POVDataGlobal := by
  rw [answerFirst_eq]
  split
  · exact (getPOVEdge_shared .rising c _).1
  · rfl

/-- The press answered has been seen, and no other one. -/
theorem answerFirst_POVData (ds : List Press) :
    (answerFirst ds c).1.POVData d.row .rising =
      if (answerFirst ds c).2 = some d then
        max (c.POVData d.row .rising) (c.POVDataGlobal d.row .rising)
      else c.POVData d.row .rising := by
  have hrow : ∀ d' : Press, d'.row = d.row ↔ d' = d := by
    intro d'
    cases d' <;> cases d <;> decide
  rw [answerFirst_eq]
  split
  · next d' _ =>
    simp only [getPOVRising, getPOVEdge_POVData, true_and, d'.rowOf_number, Option.some.injEq,
      hrow d']
  · simp

end Presses

section Run

/-- The moments at which the table records a press of a direction. -/
def pressNoted (d : Press) : OperatedMoment → Option ℤ :=
  edgeKept (processedPress d) (fun s => s.controls.POVLastValues d.row) .rising

private theorem pressNoted_update (d : Press) (s : OperatedState) (mode : Mode)
    (r : ControlsReading) : pressNoted d (moment operatedStep s (.update mode r)) =
      if r.isNewControlData ∧
          edgeOf (s.controls.POVLastValues d.row) (getPOV r d.row) = some .rising then
        some (r.povNow d.row)
      else none := by
  simp only [pressNoted, edgeKept, moment_input, moment_pre, processedPress,
    ControlsReading.samplePOV, edgeOf_eq_some]
  by_cases he : Edge.rising.between (s.controls.POVLastValues d.row) (getPOV r d.row) = true <;>
    cases r.isNewControlData <;> simp [he]

theorem answerFirst_POVLastValues (ds : List Press) (c : ControlsState Unit) :
    (answerFirst ds c).1.POVLastValues = c.POVLastValues := by
  rw [answerFirst_eq]
  split
  · exact (getPOVEdge_lastValues .rising _ c).2
  · rfl

/-- The table of last values holds the raw value processed last. -/
theorem pressLastValues_register (d : Press) :
    Register operatedStep (fun s => s.controls.POVLastValues d.row)
      fun m => (processedPress d m.input).map Prod.fst := by
  intro s event
  cases event with
  | update mode r => exact (update_lastValues r s.controls).2 d.row
  | execute mode now =>
    change (operatedStep s (.execute mode now)).1.controls.POVLastValues d.row =
      s.controls.POVLastValues d.row
    unfold operatedStep
    by_cases hm : InOperatorControl mode
    · simp only [if_pos hm, answerFirst_POVLastValues]
    · simp only [if_neg hm]

private theorem operatedStep_execute (s : OperatedState) (mode : Mode) (now : ℤ) (d : Press) :
    (operatedStep s (.execute mode now)).1.controls.POVDataGlobal = s.controls.POVDataGlobal ∧
      (operatedStep s (.execute mode now)).1.controls.POVData d.row .rising =
        if (operatedStep s (.execute mode now)).2 = some d then
          max (s.controls.POVData d.row .rising) (s.controls.POVDataGlobal d.row .rising)
        else s.controls.POVData d.row .rising := by
  unfold operatedStep
  by_cases hm : InOperatorControl mode
  · simp only [if_pos hm]
    exact ⟨answerFirst_POVDataGlobal _ _, answerFirst_POVData _ _ _⟩
  · simp [if_neg hm]

/-- For each direction the station is a bell, and an iteration that answers it has looked. -/
theorem press_doorbell (d : Press) :
    Doorbell operatedStep (fun s => s.controls.POVDataGlobal d.row .rising)
      (fun s => s.controls.POVData d.row .rising) (pressNoted d)
      (fun m => decide (m.output = some d)) where
  ring := by
    intro s event t ht
    cases event with
    | execute => simp [pressNoted, edgeKept, processedPress] at ht
    | update mode r =>
      rw [pressNoted_update, Option.ite_none_right_eq_some] at ht
      obtain ⟨hrec, hnow⟩ := ht
      refine ⟨?_, congrFun (congrFun (update_data s.controls r).2 d.row) .rising⟩
      exact (update_POVDataGlobal .rising d.row s.controls r).trans
        ((if_pos hrec).trans (Option.some.inj hnow))
  look := by
    intro s event hl
    cases event with
    | update => simp [operatedStep] at hl
    | execute mode now =>
      obtain ⟨hglobal, hdata⟩ := operatedStep_execute s mode now d
      rw [moment_output, decide_eq_true_eq] at hl
      rw [if_pos hl] at hdata
      exact ⟨rfl, congrFun (congrFun hglobal d.row) .rising, hdata⟩
  idle := by
    intro s event hr hl
    cases event with
    | update mode r =>
      rw [pressNoted_update] at hr
      simp only [ite_eq_right_iff, reduceCtorEq, imp_false] at hr
      refine ⟨?_, congrFun (congrFun (update_data s.controls r).2 d.row) .rising⟩
      exact (update_POVDataGlobal .rising d.row s.controls r).trans (if_neg hr)
    | execute mode now =>
      obtain ⟨hglobal, hdata⟩ := operatedStep_execute s mode now d
      rw [moment_output, decide_eq_false_iff_not] at hl
      rw [if_neg hl] at hdata
      exact ⟨congrFun (congrFun hglobal d.row) .rising, hdata⟩

/-- An iteration in enabled operator control answers the first unread press. -/
theorem output_of_operates {s : OperatedState} {event : OperatedEvent}
    (ho : Operates (moment operatedStep s event)) :
    (moment operatedStep s event).output = pollOrder.find? (unread s.controls) := by
  obtain ⟨mode, now, hevent, hmode⟩ := ho
  obtain rfl : event = .execute mode now := hevent
  simp only [moment_output, operatedStep, if_pos hmode, answerFirst_eq]
  cases pollOrder.find? (unread s.controls) <;> rfl

/-- Without a press the iteration leaves the three states to the timers. -/
theorem settingsAfter_none {m : OperatedMoment} (ho : Operates m) :
    settingsAfter m none = settings m.pre.ballacq := by
  obtain ⟨mode, now, hm, hdisabled, hoperator⟩ := ho
  simp [settingsAfter, hm, setAcqState, readPress, hdisabled, hoperator]

/-- A press sets what it asks for. -/
theorem settingsAfter_some {m : OperatedMoment} (ho : Operates m) (d : Press) :
    settingsAfter m (some d) = settings m.pre.ballacq ↔ AlreadySet d m.pre.ballacq := by
  obtain ⟨mode, now, hm, hdisabled, hoperator⟩ := ho
  cases d <;>
    simp [settingsAfter, hm, setAcqState, readPress, hdisabled, hoperator, settings, AlreadySet,
      Press.wants, eq_comm]

/-- The latest press of a direction whose table shows one unread. -/
theorem recorded_of_unread {events : List OperatedEvent} {h t : List OperatedMoment}
    {m : OperatedMoment} {d : Press} (ht : trace operatedStep {} events = h ++ m :: t)
    (hd : unread m.pre.controls d = true) :
    ∃ x after,
      lastWhere (Rung (pressRecorded d)) (withPast (h.map Moment.input)) = some (x, after) := by
  have hunread : m.pre.controls.POVData d.row .rising <
      m.pre.controls.POVDataGlobal d.row .rising := by simpa [unread] using hd
  obtain ⟨y, rest, hy, -⟩ := (press_doorbell d).latest_of_pending rfl ht hunread
  have hstart : ({} : OperatedState).controls.POVLastValues d.row = false := rfl
  have hshown := lastWhere_edgeShown (pressLastValues_register d) hstart .rising ht
  rw [show edgeKept (processedPress d) (fun s : OperatedState => s.controls.POVLastValues d.row)
    .rising = pressNoted d from rfl, hy, Option.map_some, Option.map_eq_some_iff] at hshown
  obtain ⟨⟨x, after⟩, hx, -⟩ := hshown
  exact ⟨x, after, hx⟩

/-- Over every run of updates and iterations, the iterations in enabled operator control act
only on presses recorded there, exactly when the stale presses they answer ask for nothing
new. -/
theorem acts_on_fresh_presses_iff (events : List OperatedEvent) :
    ActsOnFreshPresses (trace operatedStep {} events) ↔
      StalePressesHarmless (trace operatedStep {} events) := by
  have hanswer : ∀ h m t, trace operatedStep {} events = h ++ m :: t → Operates m →
      m.output = pollOrder.find? (unread m.pre.controls) := by
    intro h m t ht ho
    have hmem : m ∈ trace operatedStep {} events := by simp [ht]
    rw [eq_moment_of_mem hmem] at ho ⊢
    exact output_of_operates ho
  constructor
  · intro hfresh h m t ht ho d hd x after hx hstale
    rw [← hanswer h m t ht ho] at hd
    by_contra hset
    rw [← settingsAfter_some ho, ← hd] at hset
    obtain ⟨d', x', after', hd', hx', hmode⟩ := hfresh h m t ht ho hset
    obtain rfl := Option.some.inj (hd.symm.trans hd')
    obtain ⟨rfl, -⟩ := Prod.mk.inj (Option.some.inj (hx.symm.trans hx'))
    exact hstale hmode
  · intro hharmless h m t ht ho hchange
    have hout := hanswer h m t ht ho
    cases hd : pollOrder.find? (unread m.pre.controls) with
    | none =>
      rw [hout, hd] at hchange
      exact absurd (settingsAfter_none ho) hchange
    | some d =>
      obtain ⟨x, after, hx⟩ := recorded_of_unread ht (List.find?_some hd)
      refine ⟨d, x, after, hout.trans hd, hx, ?_⟩
      by_contra hstale
      rw [hout, hd] at hchange
      have hset := hharmless h m t ht ho d hd x after hx hstale
      exact hchange ((settingsAfter_some ho d).mpr hset)

/-- A press made while disabled, with an iteration of the disabled robot after it. -/
def pressedDisabled : List OperatedEvent :=
  [.update ⟨false, false, false⟩ { rawPOV := fun _ => 0, povNow := fun _ => 10 },
    .execute ⟨false, false, false⟩ 10, .update .teleopEnabled {}, .execute .teleopEnabled 30]

/-- A press made while the robot is disabled starts the acquisition when it is enabled. -/
theorem pressedDisabled_starts :
    ¬ ∀ events, ActsOnFreshPresses (trace operatedStep {} events) := by
  intro hall
  obtain ⟨d, x, after, hd, hx, mode, r, hevent, hmode⟩ := hall pressedDisabled
    ((trace operatedStep {} pressedDisabled).take 3) _ [] rfl
    ⟨.teleopEnabled, 30, rfl, by decide⟩ (by decide +kernel)
  obtain rfl := Option.some.inj (show some Press.acqOn = some d from hd)
  obtain ⟨rfl, -⟩ := Prod.mk.inj
    (Option.some.inj (show some (_, [_, _]) = some (x, after) from hx))
  cases hevent
  exact absurd hmode (by decide)

end Run

end SparxRobot.BallAcq
