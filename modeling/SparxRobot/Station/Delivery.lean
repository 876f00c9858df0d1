import SparxRobot.Machine.Doorbell
import SparxRobot.Machine.Register
import SparxRobot.Station.Controls

/-! Who gets to hear of an edge. Each row of an edge table is a bell: `update` rings it, and
`getButtonRising` and its siblings look. -/
namespace SparxRobot.Controls
open Machine

variable {ι : Type*} [DecidableEq ι]

section Signals

variable {α σ ω : Type*}

/-- The change of a value that an edge is. -/
def Edge.between : Edge → Bool → Bool → Bool
  | .rising, last, value => !last && value
  | .falling, last, value => last && !value

theorem edgeOf_eq_some (last value : Bool) (e : Edge) :
    edgeOf last value = some e ↔ e.between last value = true := by
  cases last <;> cases value <;> cases e <;> decide

/-- The time at which an input, with those before it, shows an edge: it samples a value,
and the latest value sampled before, or the initial one, was the other. -/
def edgeShown (samples : α → Option (Bool × ℤ)) (initial : Bool) (e : Edge)
    (x : List α × α) : Option ℤ :=
  (samples x.2).bind fun v =>
    if e.between ((lastWrite (fun a => (samples a).map Prod.fst) x.1).getD initial) v.1 then
      some v.2
    else none

/-- The same with a field of the state in the place of the latest value. -/
def edgeKept (samples : α → Option (Bool × ℤ)) (field : σ → Bool) (e : Edge)
    (m : Moment σ α ω) : Option ℤ :=
  (samples m.input).bind fun v => if e.between (field m.pre) v.1 then some v.2 else none

variable {step : Step σ α ω} {samples : α → Option (Bool × ℤ)} {field : σ → Bool} {s : σ}
  {initial : Bool} {is : List α} {h t : List (Moment σ α ω)} {m : Moment σ α ω} {e : Edge}

/-- A field that keeps the latest sample shows the edges of the samples. -/
theorem edgeShown_eq (hr : Register step field fun m => (samples m.input).map Prod.fst)
    (h0 : field s = initial) (e : Edge) (ht : trace step s is = h ++ m :: t) :
    edgeShown samples initial e (h.map Moment.input, m.input) =
      edgeKept samples field e m := by
  unfold edgeShown edgeKept
  rw [hr.value ht, lastWrite_map_list, h0]

private theorem edgeShown_of_mem
    (hr : Register step field fun m => (samples m.input).map Prod.fst) (h0 : field s = initial)
    (e : Edge) (ht : trace step s is = h ++ t) : ∀ x ∈ withPast h,
      edgeShown samples initial e (x.1.map Moment.input, x.2.input) =
        edgeKept samples field e x.2 := by
  rintro ⟨past, m⟩ hx
  obtain ⟨rest, rfl⟩ := split_of_mem_withPast hx
  exact edgeShown_eq hr h0 e (t := rest ++ t) (by simpa using ht)

theorem occursSince_edgeShown
    (hr : Register step field fun m => (samples m.input).map Prod.fst) (h0 : field s = initial)
    (e : Edge) (looks : α → Bool) (ht : trace step s is = h ++ t) :
    OccursSince (Rung (edgeShown samples initial e)) (fun x => looks x.2)
        (withPast (h.map Moment.input)) ↔
      OccursSince (Rung (edgeKept samples field e)) (fun m => looks m.input) h := by
  have hrung : ∀ x ∈ withPast h,
      Rung (edgeShown samples initial e) (x.1.map Moment.input, x.2.input) =
        Rung (edgeKept samples field e) x.2 :=
    fun x hx => congrArg Option.isSome (edgeShown_of_mem hr h0 e ht x hx)
  rw [withPast_map, occursSince_map]
  conv_rhs => rw [← map_snd_withPast h, occursSince_map]
  exact occursSince_congr hrung

theorem stamps_edgeShown
    (hr : Register step field fun m => (samples m.input).map Prod.fst) (h0 : field s = initial)
    (e : Edge) :
    stamps (edgeShown samples initial e) (withPast is) =
      stamps (edgeKept samples field e) (trace step s is) := by
  have hall := edgeShown_of_mem hr h0 e (List.append_nil (trace step s is)).symm
  have hinputs : (trace step s is).map Moment.input = is := trace_map_input step s is
  conv_lhs => rw [← hinputs, withPast_map]
  conv_rhs => rw [← map_snd_withPast (trace step s is)]
  unfold stamps
  rw [List.filterMap_map, List.filterMap_map]
  exact List.filterMap_congr hall

/-- A bell that edges of the samples ring is pending exactly when one was shown since the
party last looked, while the clock increases. -/
theorem pending_edgeShown_iff {last seen : σ → ℤ} {looks : α → Bool}
    (hbell : Doorbell step last seen (edgeKept samples field e) fun m => looks m.input)
    (hr : Register step field fun m => (samples m.input).map Prod.fst) (h0 : field s = initial)
    (hseen : seen s = last s)
    (hinc : (last s :: stamps (edgeShown samples initial e) (withPast is)).Pairwise (· < ·))
    (ht : trace step s is = h ++ m :: t) :
    seen m.pre < last m.pre ↔
      OccursSince (Rung (edgeShown samples initial e)) (fun x => looks x.2)
        (withPast (h.map Moment.input)) := by
  rw [stamps_edgeShown hr h0] at hinc
  rw [occursSince_edgeShown hr h0 e looks ht]
  exact hbell.pending_iff hseen hinc ht

/-- The input of the latest edge. -/
theorem lastWhere_edgeShown
    (hr : Register step field fun m => (samples m.input).map Prod.fst) (h0 : field s = initial)
    (e : Edge) (ht : trace step s is = h ++ t) :
    (lastWhere (Rung (edgeShown samples initial e)) (withPast (h.map Moment.input))).map
        (fun r => r.1.2) =
      (lastWhere (Rung (edgeKept samples field e)) h).map fun r => r.1.input := by
  have hrung : ∀ x ∈ withPast h,
      Rung (edgeShown samples initial e) (x.1.map Moment.input, x.2.input) =
        Rung (edgeKept samples field e) x.2 :=
    fun x hx => congrArg Option.isSome (edgeShown_of_mem hr h0 e ht x hx)
  rw [withPast_map, lastWhere_map, lastWhere_congr hrung]
  conv_rhs => rw [← map_snd_withPast h, lastWhere_map]
  rw [Option.map_map, Option.map_map]
  rfl

end Signals

section Observations

/-- The raw values an update processes, with the clock at which it would record an edge. -/
def ControlsReading.sampleButton (r : ControlsReading) (b : Fin maxButtons) :
    Option (Bool × ℤ) :=
  if r.isNewControlData then some (getButton r b, r.buttonNow b) else none

def ControlsReading.samplePOV (r : ControlsReading) (p : Fin maxPOVs) : Option (Bool × ℤ) :=
  if r.isNewControlData then some (getPOV r p, r.povNow p) else none

variable (e : Edge) (i : ι) (number : ℤ)

def processedButton : ControlsEvent ι → Option (Bool × ℤ)
  | .update _ r => (rowOf maxButtons number).bind r.sampleButton
  | _ => none

def processedPOV : ControlsEvent ι → Option (Bool × ℤ)
  | .update _ r => (rowOf maxPOVs number).bind r.samplePOV
  | _ => none

/-- The time at which a call, with those before it, records an edge of a button. The
`current` values are those the objects were made with. -/
def buttonRecorded (current : Fin maxButtons → Bool) :
    List (ControlsEvent ι) × ControlsEvent ι → Option ℤ :=
  edgeShown (processedButton number) ((rowOf maxButtons number).elim false current) e

/-- The time at which a call records an edge of a POV direction. No direction is pressed
when the objects are made. -/
def povRecorded : List (ControlsEvent ι) × ControlsEvent ι → Option ℤ :=
  edgeShown (processedPOV number) false e

/-- The call is the object's for these edges of a button. -/
def buttonPolled : ControlsEvent ι → Bool
  | .buttonEdge e' i' number' => decide (e' = e ∧ i' = i ∧ number' = number)
  | _ => false

def povPolled : ControlsEvent ι → Bool
  | .povEdge e' i' number' => decide (e' = e ∧ i' = i ∧ number' = number)
  | _ => false

/-- The same by any object. -/
def povPolledByAny : ControlsEvent ι → Bool
  | .povEdge e' _ number' => decide (e' = e ∧ number' = number)
  | _ => false

end Observations

/-- The clock readings for the edges of a kind of a button are positive and increase. -/
def ButtonClockIncreases (current : Fin maxButtons → Bool) (events : List (ControlsEvent ι)) :
    Prop :=
  ∀ e number, (0 :: stamps (buttonRecorded e number current) (withPast events)).Pairwise (· < ·)

def PovClockIncreases (events : List (ControlsEvent ι)) : Prop :=
  ∀ e number, (0 :: stamps (povRecorded e number) (withPast events)).Pairwise (· < ·)

section Tables

theorem rowOf_eq_some {n : ℕ} {number : ℤ} {k : Fin n} (h : rowOf n number = some k) :
    number = k := by
  unfold rowOf at h
  split at h
  · obtain rfl := Option.some.inj h
    simp only
    omega
  · simp at h

theorem recordEdge_apply (last value : Bool) (now : ℤ) (times : EdgeTimes) (e : Edge) :
    recordEdge last value now times e =
      if edgeOf last value = some e then now else times e := by
  unfold recordEdge
  cases he : edgeOf last value with
  | none => simp
  | some e' =>
    by_cases h : e = e'
    · simp [h]
    · simp [Function.update_of_ne h, Ne.symm h]

theorem getButtonRising_snd (seen pressed : ℤ) :
    (SparxRobot.getButtonRising seen pressed).2 = max seen pressed := by
  unfold SparxRobot.getButtonRising
  split
  · next h => exact (max_eq_right h.le).symm
  · next h => exact (max_eq_left (not_lt.mp h)).symm

theorem getButtonRising_fst (seen pressed : ℤ) :
    (SparxRobot.getButtonRising seen pressed).1 = true ↔ seen < pressed ∧ 0 < pressed := by
  unfold SparxRobot.getButtonRising
  split <;> simp_all


variable (e e' : Edge) (b : Fin maxButtons) (p : Fin maxPOVs) (s : ControlsState ι)

omit [DecidableEq ι] in
theorem update_buttonDataGlobal (r : ControlsReading) :
    (update r s).buttonDataGlobal b e =
      if r.isNewControlData ∧ edgeOf (s.buttonLastValues b) (getButton r b) = some e then
        r.buttonNow b
      else s.buttonDataGlobal b e := by
  unfold update
  cases r.isNewControlData <;> simp [recordEdge_apply]

omit [DecidableEq ι] in
theorem update_POVDataGlobal (r : ControlsReading) :
    (update r s).POVDataGlobal p e =
      if r.isNewControlData ∧ edgeOf (s.POVLastValues p) (getPOV r p) = some e then r.povNow p
      else s.POVDataGlobal p e := by
  unfold update
  cases r.isNewControlData <;> simp [recordEdge_apply]

omit [DecidableEq ι] in
theorem update_data (r : ControlsReading) :
    (update r s).buttonData = s.buttonData ∧ (update r s).POVData = s.POVData := by
  unfold update
  split <;> exact ⟨rfl, rfl⟩

/-- What a call by `j` does to the table the object `i` keeps. -/
theorem getButtonEdge_buttonData (i j : ι) (number : ℤ) :
    (getButtonEdge e' j number s).1.buttonData i b e =
      if e' = e ∧ j = i ∧ rowOf maxButtons number = some b then
        max (s.buttonData i b e) (s.buttonDataGlobal b e)
      else s.buttonData i b e := by
  unfold getButtonEdge
  cases hk : rowOf maxButtons number with
  | none => simp
  | some k =>
    simp only [Option.some.injEq]
    by_cases hj : i = j
    · subst hj
      by_cases hbk : b = k
      · subst hbk
        by_cases he : e = e'
        · subst he
          simp [getButtonRising_snd]
        · simp [he, Ne.symm he]
      · simp [hbk, Ne.symm hbk]
    · simp [hj, Ne.symm hj]

theorem getButtonEdge_shared (j : ι) (number : ℤ) :
    (getButtonEdge e' j number s).1.buttonDataGlobal = s.buttonDataGlobal ∧
      (getButtonEdge e' j number s).1.POVDataGlobal = s.POVDataGlobal ∧
      (getButtonEdge e' j number s).1.POVData = s.POVData := by
  unfold getButtonEdge
  split <;> exact ⟨rfl, rfl, rfl⟩

/-- An object that asks for a press is answered when one is newer than the one it knows. -/
theorem getButtonEdge_answer {j : ι} {number : ℤ} (hb : rowOf maxButtons number = some b) :
    (getButtonEdge e j number s).2 = some true ↔
      s.buttonData j b e < s.buttonDataGlobal b e ∧ 0 < s.buttonDataGlobal b e := by
  simp only [getButtonEdge, hb, Option.some.injEq, getButtonRising_fst]

omit [DecidableEq ι] in
theorem getPOVEdge_POVData (number : ℤ) :
    (getPOVEdge e' number s).1.POVData p e =
      if e' = e ∧ rowOf maxPOVs number = some p then max (s.POVData p e) (s.POVDataGlobal p e)
      else s.POVData p e := by
  unfold getPOVEdge
  cases hk : rowOf maxPOVs number with
  | none => simp
  | some k =>
    simp only [Option.some.injEq]
    by_cases hpk : p = k
    · subst hpk
      by_cases he : e = e'
      · subst he
        split
        · next h => simp [max_eq_right h.le]
        · next h => simp [max_eq_left (not_lt.mp h)]
      · split <;> simp [he, Ne.symm he]
    · split <;> simp [hpk, Ne.symm hpk]

omit [DecidableEq ι] in
theorem getPOVEdge_shared (number : ℤ) :
    (getPOVEdge e' number s).1.POVDataGlobal = s.POVDataGlobal ∧
      (getPOVEdge e' number s).1.buttonDataGlobal = s.buttonDataGlobal ∧
      (getPOVEdge e' number s).1.buttonData = s.buttonData := by
  unfold getPOVEdge
  split
  · exact ⟨rfl, rfl, rfl⟩
  · split <;> exact ⟨rfl, rfl, rfl⟩

omit [DecidableEq ι] in
theorem getPOVEdge_answer {number : ℤ} (hp : rowOf maxPOVs number = some p) :
    (getPOVEdge e number s).2 = some true ↔ s.POVData p e < s.POVDataGlobal p e := by
  simp only [getPOVEdge, hp]
  split <;> simp_all

end Tables

section Bells

@[simp] theorem controlsStep_buttonEdge (s : ControlsState ι) (e : Edge) (i : ι) (number : ℤ) :
    controlsStep s (.buttonEdge e i number) = getButtonEdge e i number s := by
  cases e <;> rfl

@[simp] theorem controlsStep_povEdge (s : ControlsState ι) (e : Edge) (i : ι) (number : ℤ) :
    controlsStep s (.povEdge e i number) = getPOVEdge e number s := by
  cases e <;> rfl

@[simp] theorem controlsStep_update (s : ControlsState ι) (i : ι) (r : ControlsReading) :
    controlsStep s (.update i r) = (update r s, none) := rfl

private theorem number_eq_iff {n : ℕ} {number number' : ℤ} {k : Fin n}
    (h : rowOf n number = some k) : number' = number ↔ rowOf n number' = some k :=
  ⟨fun heq => heq ▸ h, fun h' => (rowOf_eq_some h').trans (rowOf_eq_some h).symm⟩

/-- The moments at which the tables record an edge. -/
def buttonNoted (e : Edge) (number : ℤ) (b : Fin maxButtons) :
    ControlsMoment ι → Option ℤ :=
  edgeKept (processedButton number) (fun s => s.buttonLastValues b) e

def povNoted (e : Edge) (number : ℤ) (p : Fin maxPOVs) : ControlsMoment ι → Option ℤ :=
  edgeKept (processedPOV number) (fun s => s.POVLastValues p) e

private theorem buttonNoted_update (e : Edge) {number : ℤ} {b : Fin maxButtons}
    (hb : rowOf maxButtons number = some b) (s : ControlsState ι) (j : ι)
    (r : ControlsReading) : buttonNoted e number b (moment controlsStep s (.update j r)) =
      if r.isNewControlData ∧ edgeOf (s.buttonLastValues b) (getButton r b) = some e then
        some (r.buttonNow b)
      else none := by
  simp only [buttonNoted, edgeKept, moment_input, moment_pre, processedButton, hb,
    Option.bind_some, ControlsReading.sampleButton, edgeOf_eq_some]
  by_cases he : e.between (s.buttonLastValues b) (getButton r b) = true <;>
    cases r.isNewControlData <;> simp [he]

private theorem povNoted_update (e : Edge) {number : ℤ} {p : Fin maxPOVs}
    (hp : rowOf maxPOVs number = some p) (s : ControlsState ι) (j : ι)
    (r : ControlsReading) : povNoted e number p (moment controlsStep s (.update j r)) =
      if r.isNewControlData ∧ edgeOf (s.POVLastValues p) (getPOV r p) = some e then
        some (r.povNow p)
      else none := by
  simp only [povNoted, edgeKept, moment_input, moment_pre, processedPOV, hp,
    Option.bind_some, ControlsReading.samplePOV, edgeOf_eq_some]
  by_cases he : e.between (s.POVLastValues p) (getPOV r p) = true <;>
    cases r.isNewControlData <;> simp [he]

/-- Every row of the button table is a bell, and each object looks at it for itself. -/
theorem button_doorbell (e : Edge) (i : ι) {number : ℤ} {b : Fin maxButtons}
    (hb : rowOf maxButtons number = some b) :
    Doorbell controlsStep (fun s : ControlsState ι => s.buttonDataGlobal b e)
      (fun s => s.buttonData i b e) (buttonNoted e number b)
      (fun m => buttonPolled e i number m.input) where
  ring := by
    intro s event t ht
    cases event with
    | update j r =>
      rw [buttonNoted_update e hb, Option.ite_none_right_eq_some] at ht
      obtain ⟨hrec, hnow⟩ := ht
      rw [controlsStep_update, update_buttonDataGlobal, if_pos hrec, (update_data s r).1]
      exact ⟨Option.some.inj hnow, rfl⟩
    | buttonEdge => simp [buttonNoted, edgeKept, processedButton] at ht
    | povEdge => simp [buttonNoted, edgeKept, processedButton] at ht
  look := by
    intro s event hl
    cases event with
    | update => simp [buttonPolled] at hl
    | povEdge => simp [buttonPolled] at hl
    | buttonEdge e' j number' =>
      simp only [buttonPolled, moment_input, decide_eq_true_eq] at hl
      obtain ⟨rfl, rfl, rfl⟩ := hl
      refine ⟨rfl, ?_, ?_⟩
      · rw [controlsStep_buttonEdge, (getButtonEdge_shared e' s j number').1]
      · rw [controlsStep_buttonEdge, getButtonEdge_buttonData, if_pos ⟨rfl, rfl, hb⟩]
  idle := by
    intro s event hr hl
    cases event with
    | update j r =>
      rw [buttonNoted_update e hb] at hr
      simp only [ite_eq_right_iff, reduceCtorEq, imp_false] at hr
      rw [controlsStep_update, update_buttonDataGlobal, if_neg hr, (update_data s r).1]
      exact ⟨rfl, rfl⟩
    | povEdge e' j number' =>
      obtain ⟨-, hglobal, hdata⟩ := getPOVEdge_shared e' s number'
      rw [controlsStep_povEdge, hglobal, hdata]
      exact ⟨rfl, rfl⟩
    | buttonEdge e' j number' =>
      simp only [buttonPolled, moment_input, decide_eq_false_iff_not, number_eq_iff hb] at hl
      rw [controlsStep_buttonEdge, (getButtonEdge_shared e' s j number').1,
        getButtonEdge_buttonData, if_neg hl]
      exact ⟨rfl, rfl⟩

/-- Every row of the POV table is one bell for all objects together. -/
theorem pov_doorbell (e : Edge) {number : ℤ} {p : Fin maxPOVs}
    (hp : rowOf maxPOVs number = some p) :
    Doorbell controlsStep (fun s : ControlsState ι => s.POVDataGlobal p e)
      (fun s => s.POVData p e) (povNoted e number p)
      (fun m => povPolledByAny e number m.input) where
  ring := by
    intro s event t ht
    cases event with
    | update j r =>
      rw [povNoted_update e hp, Option.ite_none_right_eq_some] at ht
      obtain ⟨hrec, hnow⟩ := ht
      rw [controlsStep_update, update_POVDataGlobal, if_pos hrec, (update_data s r).2]
      exact ⟨Option.some.inj hnow, rfl⟩
    | buttonEdge => simp [povNoted, edgeKept, processedPOV] at ht
    | povEdge => simp [povNoted, edgeKept, processedPOV] at ht
  look := by
    intro s event hl
    cases event with
    | update => simp [povPolledByAny] at hl
    | buttonEdge => simp [povPolledByAny] at hl
    | povEdge e' j number' =>
      simp only [povPolledByAny, moment_input, decide_eq_true_eq] at hl
      obtain ⟨rfl, rfl⟩ := hl
      refine ⟨rfl, ?_, ?_⟩
      · rw [controlsStep_povEdge, (getPOVEdge_shared e' s number').1]
      · rw [controlsStep_povEdge, getPOVEdge_POVData, if_pos ⟨rfl, hp⟩]
  idle := by
    intro s event hr hl
    cases event with
    | update j r =>
      rw [povNoted_update e hp] at hr
      simp only [ite_eq_right_iff, reduceCtorEq, imp_false] at hr
      rw [controlsStep_update, update_POVDataGlobal, if_neg hr, (update_data s r).2]
      exact ⟨rfl, rfl⟩
    | buttonEdge e' j number' =>
      obtain ⟨-, hglobal, hdata⟩ := getButtonEdge_shared e' s j number'
      rw [controlsStep_buttonEdge, hglobal, hdata]
      exact ⟨rfl, rfl⟩
    | povEdge e' j number' =>
      simp only [povPolledByAny, moment_input, decide_eq_false_iff_not, number_eq_iff hp] at hl
      rw [controlsStep_povEdge, (getPOVEdge_shared e' s number').1, getPOVEdge_POVData,
        if_neg hl]
      exact ⟨rfl, rfl⟩

end Bells

section LastValues

omit [DecidableEq ι] in
theorem update_lastValues (r : ControlsReading) (s : ControlsState ι) :
    (∀ b, (update r s).buttonLastValues b =
        ((r.sampleButton b).map Prod.fst).getD (s.buttonLastValues b)) ∧
      ∀ p, (update r s).POVLastValues p =
        ((r.samplePOV p).map Prod.fst).getD (s.POVLastValues p) := by
  unfold update ControlsReading.sampleButton ControlsReading.samplePOV
  cases r.isNewControlData <;> exact ⟨fun _ => rfl, fun _ => rfl⟩

theorem getButtonEdge_lastValues (e : Edge) (i : ι) (number : ℤ) (s : ControlsState ι) :
    (getButtonEdge e i number s).1.buttonLastValues = s.buttonLastValues ∧
      (getButtonEdge e i number s).1.POVLastValues = s.POVLastValues := by
  unfold getButtonEdge
  split <;> exact ⟨rfl, rfl⟩

omit [DecidableEq ι] in
theorem getPOVEdge_lastValues (e : Edge) (number : ℤ) (s : ControlsState ι) :
    (getPOVEdge e number s).1.buttonLastValues = s.buttonLastValues ∧
      (getPOVEdge e number s).1.POVLastValues = s.POVLastValues := by
  unfold getPOVEdge
  split
  · exact ⟨rfl, rfl⟩
  · split <;> exact ⟨rfl, rfl⟩

/-- Every last value is a register of the raw values that are processed. -/
theorem buttonLastValues_register {number : ℤ} {b : Fin maxButtons}
    (hb : rowOf maxButtons number = some b) :
    Register controlsStep (fun s : ControlsState ι => s.buttonLastValues b)
      fun m => (processedButton number m.input).map Prod.fst := by
  intro s event
  cases event with
  | update j r =>
    simp only [moment_input, processedButton, hb, Option.bind_some]
    exact (update_lastValues r s).1 b
  | buttonEdge e j number' =>
    rw [controlsStep_buttonEdge]
    exact congrFun (getButtonEdge_lastValues e j number' s).1 b
  | povEdge e j number' =>
    rw [controlsStep_povEdge]
    exact congrFun (getPOVEdge_lastValues e number' s).1 b

theorem POVLastValues_register {number : ℤ} {p : Fin maxPOVs}
    (hp : rowOf maxPOVs number = some p) :
    Register controlsStep (fun s : ControlsState ι => s.POVLastValues p)
      fun m => (processedPOV number m.input).map Prod.fst := by
  intro s event
  cases event with
  | update j r =>
    simp only [moment_input, processedPOV, hp, Option.bind_some]
    exact (update_lastValues r s).2 p
  | buttonEdge e j number' =>
    rw [controlsStep_buttonEdge]
    exact congrFun (getButtonEdge_lastValues e j number' s).2 p
  | povEdge e j number' =>
    rw [controlsStep_povEdge]
    exact congrFun (getPOVEdge_lastValues e number' s).2 p

/-- At every point of every run the table of last values holds the raw value processed last,
or the one the objects were made with. -/
theorem buttonLastValues_eq {current : Fin maxButtons → Bool} {events : List (ControlsEvent ι)}
    {h t : List (ControlsMoment ι)} {m : ControlsMoment ι} {number : ℤ} {b : Fin maxButtons}
    (hb : rowOf maxButtons number = some b)
    (ht : trace controlsStep (constructed current) events = h ++ m :: t) :
    m.pre.buttonLastValues b =
      (lastWrite (fun x => (processedButton number x).map Prod.fst)
        (h.map Moment.input)).getD (current b) := by
  rw [lastWrite_map_list]
  exact (buttonLastValues_register hb).value ht

end LastValues

section Delivery

variable {current : Fin maxButtons → Bool} {events : List (ControlsEvent ι)}
  {h t : List (ControlsMoment ι)} {m : ControlsMoment ι} {e : Edge} {i : ι} {number : ℤ}

theorem edgeShown_eq_some {α : Type*} {samples : α → Option (Bool × ℤ)} {initial : Bool}
    {x : List α × α} {u : ℤ} (hu : edgeShown samples initial e x = some u) :
    ∃ value, samples x.2 = some (value, u) := by
  obtain ⟨⟨value, now⟩, hv, hif⟩ := Option.bind_eq_some_iff.mp hu
  rw [Option.ite_none_right_eq_some] at hif
  exact ⟨value, hv.trans (congrArg (fun n => some (value, n)) (Option.some.inj hif.2))⟩

/-- Without samples there are no edges. -/
private theorem not_occursSince_of_silent {α : Type*} {samples : α → Option (Bool × ℤ)}
    (hs : ∀ a, samples a = none) (initial : Bool) (looks : List α × α → Bool)
    (as : List (List α × α)) :
    ¬ OccursSince (Rung (edgeShown samples initial e)) looks as := by
  rintro ⟨before, x, after, -, hrung, -⟩
  simp [Rung, edgeShown, hs] at hrung

omit [DecidableEq ι] in
private theorem processedButton_of_no_row (hn : rowOf maxButtons number = none)
    (x : ControlsEvent ι) : processedButton number x = none := by
  cases x <;> simp [processedButton, hn]

omit [DecidableEq ι] in
private theorem processedPOV_of_no_row (hn : rowOf maxPOVs number = none)
    (x : ControlsEvent ι) : processedPOV number x = none := by
  cases x <;> simp [processedPOV, hn]

/-- A run in which only the first call records has its clock in order. -/
private theorem increases_of_first {α : Type*} {rings : α → Option ℤ} {x : α} {xs : List α}
    (hx : ∀ u, rings x = some u → 0 < u) (hxs : ∀ y ∈ xs, rings y = none) :
    (0 :: stamps rings (x :: xs)).Pairwise (· < ·) := by
  have hrest : xs.filterMap rings = [] := List.filterMap_eq_nil_iff.mpr hxs
  cases hr : rings x with
  | none => simp [stamps, hr, hrest]
  | some u => simp [stamps, hr, hrest, hx u hr]

/-- Every button pressed and the POV up, ten milliseconds after the start. -/
def allPressed : ControlsReading where
  rawButton _ _ := true
  rawPOV _ := 0
  buttonNow _ := 10
  povNow _ := 10

omit [DecidableEq ι] in
private theorem buttonRecorded_pos {past : List (ControlsEvent ι)} {u : ℤ}
    (hu : buttonRecorded e number current (past, .update i allPressed) = some u) : 0 < u := by
  obtain ⟨value, hv⟩ := edgeShown_eq_some hu
  obtain ⟨b, -, hb⟩ := Option.bind_eq_some_iff.mp hv
  have hten : (10 : ℤ) = u := congrArg Prod.snd (Option.some.inj hb)
  omega

omit [DecidableEq ι] in
private theorem povRecorded_pos {past : List (ControlsEvent ι)} {u : ℤ}
    (hu : povRecorded e number (past, .update i allPressed) = some u) : 0 < u := by
  obtain ⟨value, hv⟩ := edgeShown_eq_some hu
  obtain ⟨p, -, hp⟩ := Option.bind_eq_some_iff.mp hv
  have hten : (10 : ℤ) = u := congrArg Prod.snd (Option.some.inj hp)
  omega

/-- Over every interleaving of updates and polls by any number of objects, an object hears of
an edge of a button exactly when one was recorded since it last asked. -/
theorem button_edges_delivered (hclock : ButtonClockIncreases current events)
    (ht : trace controlsStep (constructed current) events = h ++ m :: t)
    (hm : m.input = .buttonEdge e i number) :
    m.output = some true ↔
      OccursSince (Rung (buttonRecorded e number current))
        (fun x => buttonPolled e i number x.2) (withPast (h.map Moment.input)) := by
  have hout : m.output = (getButtonEdge e i number m.pre).2 := by
    have hmem : m ∈ trace controlsStep (constructed current) events := by simp [ht]
    rw [eq_moment_of_mem hmem, moment_output, hm, controlsStep_buttonEdge, moment_pre]
  rw [hout]
  cases hb : rowOf maxButtons number with
  | none =>
    refine iff_of_false ?_
      (not_occursSince_of_silent (processedButton_of_no_row hb) _ _ _)
    simp [getButtonEdge, hb]
  | some b =>
    have hbell := button_doorbell e i hb
    have hreg := buttonLastValues_register (ι := ι) hb
    have hrec : buttonRecorded e number current =
        edgeShown (processedButton (ι := ι) number) (current b) e := by
      rw [buttonRecorded, hb]
      rfl
    have h0 : (constructed current : ControlsState ι).buttonData i b e =
        (constructed current : ControlsState ι).buttonDataGlobal b e := rfl
    have hstart : (constructed current : ControlsState ι).buttonLastValues b = current b := rfl
    have hseen : 0 ≤ m.pre.buttonData i b e := hbell.le_seen h0 ht
    have hinc := hclock e number
    rw [hrec] at hinc ⊢
    rw [getButtonEdge_answer e b m.pre hb]
    refine Iff.trans ?_ (pending_edgeShown_iff hbell hreg hstart h0 hinc ht)
    exact ⟨And.left, fun hp => ⟨hp, hseen.trans_lt hp⟩⟩

/-- Two objects ask for the same button, one after the other. -/
def bothAskButton : List (ControlsEvent Bool) :=
  [.update true allPressed, .buttonEdge .rising true 4, .buttonEdge .rising false 4]

/-- The second object hears of the press, though the first one asked before it. -/
theorem bothAskButton_delivered :
    ((trace controlsStep (constructed fun _ => false) bothAskButton).map Moment.output =
        [none, some true, some true]) ∧
      OccursSince (Rung (buttonRecorded .rising 4 fun _ => false))
        (fun x => buttonPolled .rising false 4 x.2) (withPast (bothAskButton.take 2)) := by
  have hclock : ButtonClockIncreases (fun _ => false) bothAskButton := fun e number =>
    increases_of_first (fun u => buttonRecorded_pos)
      (by simp [withPast, buttonRecorded, edgeShown, processedButton])
  exact ⟨by decide, (button_edges_delivered hclock
    (h := (trace controlsStep (constructed fun _ => false) bothAskButton).take 2)
    rfl rfl).mp (by decide)⟩

/-- An edge of a POV direction is heard of by whichever object asks first. -/
theorem pov_edges_shared (hclock : PovClockIncreases events)
    (ht : trace controlsStep (constructed current) events = h ++ m :: t)
    (hm : m.input = .povEdge e i number) :
    m.output = some true ↔
      OccursSince (Rung (povRecorded e number)) (fun x => povPolledByAny e number x.2)
        (withPast (h.map Moment.input)) := by
  have hout : m.output = (getPOVEdge e number m.pre).2 := by
    have hmem : m ∈ trace controlsStep (constructed current) events := by simp [ht]
    rw [eq_moment_of_mem hmem, moment_output, hm, controlsStep_povEdge, moment_pre]
  rw [hout]
  cases hp : rowOf maxPOVs number with
  | none =>
    refine iff_of_false ?_ (not_occursSince_of_silent (processedPOV_of_no_row hp) _ _ _)
    simp [getPOVEdge, hp]
  | some p =>
    have hbell := pov_doorbell (ι := ι) e hp
    have hreg := POVLastValues_register (ι := ι) hp
    have h0 : (constructed current : ControlsState ι).POVData p e =
        (constructed current : ControlsState ι).POVDataGlobal p e := rfl
    have hstart : (constructed current : ControlsState ι).POVLastValues p = false := rfl
    rw [getPOVEdge_answer e p m.pre hp]
    exact pending_edgeShown_iff hbell hreg hstart h0 (hclock e number) ht

/-- Since the latest edge of the direction the object has asked for it, or no other object
has. -/
def TakenByNoOther (e : Edge) (i : ι) (number : ℤ) (calls : List (ControlsEvent ι)) : Prop :=
  ∀ x after, lastWhere (Rung (povRecorded e number)) (withPast calls) = some (x, after) →
    (∀ y ∈ after, povPolled e i number y.2 = false) →
      ∀ j ≠ i, ∀ y ∈ after, povPolled e j number y.2 = false

theorem povPolledByAny_eq_false (x : ControlsEvent ι) :
    povPolledByAny e number x = false ↔ ∀ j, povPolled e j number x = false := by
  cases x with
  | povEdge e' i' number' => simp [povPolledByAny, povPolled]
  | update => simp [povPolledByAny, povPolled]
  | buttonEdge => simp [povPolledByAny, povPolled]

/-- An object is told of the edges of a direction since it last asked, exactly when no other
object has taken the latest of them. -/
theorem pov_edges_delivered_iff (hclock : PovClockIncreases events)
    (ht : trace controlsStep (constructed current) events = h ++ m :: t)
    (hm : m.input = .povEdge e i number) :
    (m.output = some true ↔
        OccursSince (Rung (povRecorded e number)) (fun x => povPolled e i number x.2)
          (withPast (h.map Moment.input))) ↔
      TakenByNoOther e i number (h.map Moment.input) := by
  have hany : ∀ x : List (ControlsEvent ι) × ControlsEvent ι,
      povPolled e i number x.2 = true → povPolledByAny e number x.2 = true := by
    intro x hx
    by_contra hc
    have hnone := (povPolledByAny_eq_false x.2).mp (by simpa using hc) i
    simp [hx] at hnone
  rw [pov_edges_shared hclock ht hm, occursSince_iff_of_imp hany]
  constructor
  · intro hall x after hx hown j _ y hy
    exact (povPolledByAny_eq_false y.2).mp (hall x after hx hown y hy) j
  · intro hall x after hx hown y hy
    refine (povPolledByAny_eq_false y.2).mpr fun j => ?_
    by_cases hj : j = i
    · exact hj ▸ hown y hy
    · exact hall x after hx hown j hj y hy

/-- Two objects ask for the same direction, the first one twice. -/
def bothAskPOV : List (ControlsEvent Bool) :=
  [.update true allPressed, .povEdge .rising true 0, .povEdge .rising true 0,
    .povEdge .rising false 0]

private theorem bothAskPOV_clock : PovClockIncreases bothAskPOV := fun e number =>
  increases_of_first (fun u => povRecorded_pos)
    (by simp [withPast, povRecorded, edgeShown, processedPOV])

/-- The object that asks first is told of the press once. -/
theorem firstAsker_told_once :
    OccursSince (Rung (povRecorded .rising 0)) (fun x => povPolled .rising true 0 x.2)
        (withPast (bothAskPOV.take 1)) ∧
      ¬ OccursSince (Rung (povRecorded .rising 0)) (fun x => povPolled .rising true 0 x.2)
        (withPast (bothAskPOV.take 2)) := by
  let T := trace controlsStep (constructed fun _ => false) bothAskPOV
  have hfirst : TakenByNoOther .rising true 0 (bothAskPOV.take 1) := by
    intro x after hx _ j _ y hy
    obtain ⟨-, rfl⟩ := Prod.mk.inj (Option.some.inj (show some (_, []) = some (x, after) from hx))
    simp at hy
  have hsecond : TakenByNoOther .rising true 0 (bothAskPOV.take 2) := by
    intro x after hx hown
    obtain ⟨-, rfl⟩ := Prod.mk.inj
      (Option.some.inj (show some (_, [_]) = some (x, after) from hx))
    exact absurd (hown _ (List.mem_singleton.mpr rfl)) (by decide)
  have htold := (pov_edges_delivered_iff bothAskPOV_clock
    (show T = T.take 1 ++ _ :: _ from rfl) rfl).mpr hfirst
  have hagain := (pov_edges_delivered_iff bothAskPOV_clock
    (show T = T.take 2 ++ _ :: _ from rfl) rfl).mpr hsecond
  exact ⟨htold.mp (by decide), fun ho => absurd (hagain.mpr ho) (by decide)⟩

/-- The object that asks second is not told of the press. -/
theorem secondAsker_misses :
    ¬ ∀ (current : Fin maxButtons → Bool) (events : List (ControlsEvent Bool)),
      PovClockIncreases events →
        ∀ h m t, trace controlsStep (constructed current) events = h ++ m :: t →
          ∀ e i number, m.input = .povEdge e i number → (m.output = some true ↔
            OccursSince (Rung (povRecorded e number)) (fun x => povPolled e i number x.2)
              (withPast (h.map Moment.input))) := by
  intro hall
  have hheard := hall (fun _ => false) _ bothAskPOV_clock
    ((trace controlsStep (constructed fun _ => false) bothAskPOV).take 3) _ [] rfl
    .rising false 0 rfl
  have hpressed : OccursSince (Rung (povRecorded .rising 0))
      (fun x => povPolled .rising false 0 x.2) (withPast (bothAskPOV.take 3)) :=
    ⟨[], _, _, rfl, by decide, by decide⟩
  exact absurd (hheard.mpr hpressed) (by decide)

end Delivery

end SparxRobot.Controls
