import Mathlib.Data.List.Basic

/-! Input-driven machines. A step reads an input, moves to a state and emits an
output; a run is a list of inputs. The rules here lift a fact about one step to a
fact about every moment of every run. -/
namespace Machine

variable {σ ι ω : Type*}

abbrev Step (σ ι ω : Type*) := σ → ι → σ × ω

/-- One step as it occurred: the state it started in, what it read, where it went
and what it emitted. -/
structure Moment (σ ι ω : Type*) where
  pre : σ
  input : ι
  post : σ
  output : ω

def moment (step : Step σ ι ω) (s : σ) (i : ι) : Moment σ ι ω :=
  ⟨s, i, (step s i).1, (step s i).2⟩

@[simp] theorem moment_pre (step : Step σ ι ω) (s : σ) (i : ι) :
    (moment step s i).pre = s := rfl

@[simp] theorem moment_input (step : Step σ ι ω) (s : σ) (i : ι) :
    (moment step s i).input = i := rfl

@[simp] theorem moment_post (step : Step σ ι ω) (s : σ) (i : ι) :
    (moment step s i).post = (step s i).1 := rfl

@[simp] theorem moment_output (step : Step σ ι ω) (s : σ) (i : ι) :
    (moment step s i).output = (step s i).2 := rfl

/-- The state a run ends in. -/
def final (step : Step σ ι ω) : σ → List ι → σ
  | s, [] => s
  | s, i :: is => final step (step s i).1 is

/-- The moments of a run in the order they occur. -/
def trace (step : Step σ ι ω) : σ → List ι → List (Moment σ ι ω)
  | _, [] => []
  | s, i :: is => moment step s i :: trace step (step s i).1 is

/-- What a run shows to an observer of the outputs. -/
def outputs (step : Step σ ι ω) (s : σ) (is : List ι) : List ω :=
  (trace step s is).map Moment.output

theorem trace_append (step : Step σ ι ω) (s : σ) (is js : List ι) :
    trace step s (is ++ js) = trace step s is ++ trace step (final step s is) js := by
  induction is generalizing s with
  | nil => rfl
  | cons i is ih => simp only [List.cons_append, trace, final, ih]

@[simp] theorem trace_map_input (step : Step σ ι ω) (s : σ) (is : List ι) :
    (trace step s is).map Moment.input = is := by
  induction is generalizing s with
  | nil => rfl
  | cons i is ih => simp [trace, ih]

theorem final_append (step : Step σ ι ω) (s : σ) (is js : List ι) :
    final step s (is ++ js) = final step (final step s is) js := by
  induction is generalizing s with
  | nil => rfl
  | cons i is ih => exact ih _

/-- A run split at a moment goes on from where the moment ended. -/
theorem trace_after {step : Step σ ι ω} {s : σ} {is : List ι} {h t : List (Moment σ ι ω)}
    {m : Moment σ ι ω} (ht : trace step s is = h ++ m :: t) :
    m = moment step m.pre m.input ∧ ∃ js, t = trace step m.post js := by
  induction is generalizing s h with
  | nil => simp [trace] at ht
  | cons i is ih =>
    cases h with
    | nil =>
      obtain ⟨rfl, htail⟩ := List.cons.inj ht
      exact ⟨rfl, is, htail.symm⟩
    | cons x h => exact ih (List.cons.inj ht).2

/-- Every moment of a run is the step taken from its own state on its own input. -/
theorem eq_moment_of_mem {step : Step σ ι ω} {s : σ} {is : List ι} {m : Moment σ ι ω}
    (hm : m ∈ trace step s is) : m = moment step m.pre m.input := by
  induction is generalizing s with
  | nil => simp [trace] at hm
  | cons i is ih =>
    rcases List.mem_cons.mp hm with rfl | hm
    · rfl
    · exact ih hm

/-- A moment's input is one of the inputs of the run. -/
theorem input_mem_of_mem {step : Step σ ι ω} {s : σ} {is : List ι} {m : Moment σ ι ω}
    (hm : m ∈ trace step s is) : m.input ∈ is := by
  induction is generalizing s with
  | nil => simp [trace] at hm
  | cons i is ih =>
    rcases List.mem_cons.mp hm with rfl | hm
    · simp
    · exact List.mem_cons_of_mem _ (ih hm)

section Invariants

variable {step : Step σ ι ω} {Ok : σ → ι → Prop}

/-- The invariant rule: what every admissible step preserves holds at both ends of
every moment of a run whose steps are admissible. -/
theorem invariant_of_step {P : σ → Prop}
    (hstep : ∀ s i, P s → Ok s i → P (step s i).1) {s : σ} {is : List ι} (h0 : P s)
    (hok : ∀ m ∈ trace step s is, Ok m.pre m.input) :
    (∀ m ∈ trace step s is, P m.pre ∧ P m.post) ∧ P (final step s is) := by
  induction is generalizing s with
  | nil => exact ⟨by simp [trace], h0⟩
  | cons i is ih =>
    have hi : Ok s i := hok (moment step s i) (by simp [trace])
    have h1 := hstep s i h0 hi
    obtain ⟨hm, hf⟩ := ih h1 (fun m hm => hok m (List.mem_cons_of_mem _ hm))
    refine ⟨fun m hmem => ?_, hf⟩
    rcases List.mem_cons.mp hmem with rfl | hmem
    · exact ⟨h0, h1⟩
    · exact hm m hmem

/-- The pointwise rule: what says the same of every admissible step from a state of the
invariant says the same of all moments of an admissible run. -/
theorem forall_trace_congr {P : σ → Prop} {A B : Moment σ ι ω → Prop}
    (hstep : ∀ s i, P s → Ok s i → P (step s i).1)
    (hiff : ∀ s i, P s → (A (moment step s i) ↔ B (moment step s i))) {s : σ} {is : List ι}
    (h0 : P s) (hok : ∀ m ∈ trace step s is, Ok m.pre m.input) :
    (∀ m ∈ trace step s is, A m) ↔ ∀ m ∈ trace step s is, B m := by
  obtain ⟨hinv, -⟩ := invariant_of_step hstep h0 hok
  apply forall₂_congr
  intro m hm
  rw [eq_moment_of_mem hm]
  exact hiff _ _ (hinv m hm).1

/-- The exact rule: what says the same of every step from a state of the invariant, and where
it holds keeps the invariant, says the same of all moments of a run. -/
theorem forall_trace_iff {P : σ → Prop} {I : ι → Prop} {A B : Moment σ ι ω → Prop}
    (hiff : ∀ s i, I i → P s → (A (moment step s i) ↔ B (moment step s i)))
    (hstep : ∀ s i, I i → P s → B (moment step s i) → P (step s i).1) {s : σ} {is : List ι}
    (h0 : P s) (his : ∀ i ∈ is, I i) :
    (∀ m ∈ trace step s is, A m) ↔ ∀ m ∈ trace step s is, B m := by
  induction is generalizing s with
  | nil => simp [trace]
  | cons i is ih =>
    have hi : I i := his i List.mem_cons_self
    rw [trace, List.forall_mem_cons, List.forall_mem_cons, hiff s i hi h0]
    apply and_congr_right
    intro hb
    exact ih (hstep s i hi h0 hb) fun j hj => his j (List.mem_cons_of_mem _ hj)

/-- The exact invariant rule: what a step keeps exactly under a condition holds throughout a
run exactly when the condition holds at every moment. -/
theorem invariant_iff {P : σ → Prop} {C : Moment σ ι ω → Prop}
    (hstep : ∀ s i, P s → (P (step s i).1 ↔ C (moment step s i))) {s : σ} {is : List ι}
    (h0 : P s) : (∀ m ∈ trace step s is, P m.post) ↔ ∀ m ∈ trace step s is, C m :=
  forall_trace_iff (I := fun _ => True) (fun s i _ => hstep s i)
    (fun s i _ hs => (hstep s i hs).mpr) h0 fun _ _ => trivial

/-- The settling rule for a part of the state that only its own inputs move: taken while
`P` holds of it they establish `Q`, which entails `P`; so a run with an input of the kind
ends in `Q`. -/
theorem final_of_settles {α : Type*} {f : σ → α} {P Q : α → Prop} {Ok Own : ι → Prop}
    (hown : ∀ s i, P (f s) → Ok i → Own i → Q (f (step s i).1))
    (hother : ∀ s i, Ok i → ¬ Own i → f (step s i).1 = f s) (hQ : ∀ a, Q a → P a)
    {s : σ} {is : List ι} (h0 : P (f s)) (hok : ∀ i ∈ is, Ok i) (hex : ∃ i ∈ is, Own i) :
    Q (f (final step s is)) := by
  have hlast : ∀ is s, Q (f s) → (∀ i ∈ is, Ok i) → Q (f (final step s is)) := by
    intro is
    induction is with
    | nil => exact fun s hq _ => hq
    | cons i is ih =>
      intro s hq hok
      have hi := hok i List.mem_cons_self
      apply ih _ _ (fun j hj => hok j (List.mem_cons_of_mem _ hj))
      by_cases how : Own i
      · exact hown s i (hQ _ hq) hi how
      · rwa [hother s i hi how]
  induction is generalizing s with
  | nil => simp at hex
  | cons i is ih =>
    have hi := hok i List.mem_cons_self
    have htail : ∀ j ∈ is, Ok j := fun j hj => hok j (List.mem_cons_of_mem _ hj)
    by_cases how : Own i
    · exact hlast is _ (hown s i h0 hi how) htail
    · obtain ⟨j, hj, hjown⟩ := hex
      apply ih _ htail
      · rcases List.mem_cons.mp hj with rfl | hj
        · exact absurd hjown how
        · exact ⟨j, hj, hjown⟩
      · rwa [hother s i hi how]

private theorem history_from {Inv : List (Moment σ ι ω) → σ → Prop}
    (hstep : ∀ h s i, Inv h s → Ok s i → Inv (h ++ [moment step s i]) (step s i).1)
    (is : List ι) : ∀ (past : List (Moment σ ι ω)) (s : σ), Inv past s →
      (∀ m ∈ trace step s is, Ok m.pre m.input) →
      (∀ h m t, trace step s is = h ++ m :: t → Inv (past ++ h) m.pre) ∧
        Inv (past ++ trace step s is) (final step s is) := by
  induction is with
  | nil => intro past s h0 _; exact ⟨by simp [trace], by simpa [trace, final] using h0⟩
  | cons i is ih =>
    intro past s h0 hok
    have hi : Ok s i := hok (moment step s i) (by simp [trace])
    obtain ⟨hm, hf⟩ := ih _ _ (hstep past s i h0 hi)
      (fun m hm => hok m (List.mem_cons_of_mem _ hm))
    refine ⟨fun h m t heq => ?_, by simpa [trace, final] using hf⟩
    cases h with
    | nil =>
      obtain ⟨rfl, -⟩ := List.cons.inj heq
      simpa using h0
    | cons m' h =>
      obtain ⟨rfl, htail⟩ := List.cons.inj heq
      simpa using hm h m t htail

/-- The history rule: an invariant that also speaks about the moments so far holds at
every point of every admissible run. -/
theorem history_invariant {Inv : List (Moment σ ι ω) → σ → Prop}
    (hstep : ∀ h s i, Inv h s → Ok s i → Inv (h ++ [moment step s i]) (step s i).1)
    {s : σ} {is : List ι} (h0 : Inv [] s) (hok : ∀ m ∈ trace step s is, Ok m.pre m.input) :
    (∀ h m t, trace step s is = h ++ m :: t → Inv h m.pre) ∧
      Inv (trace step s is) (final step s is) := by
  simpa using history_from hstep is [] s h0 hok

end Invariants

section Pair

variable {step : Step σ ι ω}

/-- Two copies of a machine that read the same inputs. -/
def pair (step : Step σ ι ω) : Step (σ × σ) ι (ω × ω) :=
  fun s i => (((step s.1 i).1, (step s.2 i).1), ((step s.1 i).2, (step s.2 i).2))

theorem outputs_fst_of_pair (s : σ × σ) (is : List ι) :
    (outputs (pair step) s is).map Prod.fst = outputs step s.1 is := by
  induction is generalizing s with
  | nil => rfl
  | cons i is ih => exact congrArg (List.cons (step s.1 i).2) (ih _)

theorem outputs_snd_of_pair (s : σ × σ) (is : List ι) :
    (outputs (pair step) s is).map Prod.snd = outputs step s.2 is := by
  induction is generalizing s with
  | nil => rfl
  | cons i is ih => exact congrArg (List.cons (step s.2 i).2) (ih _)

/-- The two-run rule: a relation kept by every admissible step of the pair, under which
both copies emit the same, makes the two runs indistinguishable. -/
theorem outputs_eq_of_relation {R : σ × σ → Prop} {Ok : σ × σ → ι → Prop}
    (hstep : ∀ s i, R s → Ok s i → R (pair step s i).1)
    (hout : ∀ s i, R s → Ok s i → (step s.1 i).2 = (step s.2 i).2)
    {s : σ × σ} {is : List ι} (h0 : R s)
    (hok : ∀ m ∈ trace (pair step) s is, Ok m.pre m.input) :
    outputs step s.1 is = outputs step s.2 is := by
  obtain ⟨hinv, -⟩ := invariant_of_step hstep h0 hok
  rw [← outputs_fst_of_pair, ← outputs_snd_of_pair]
  unfold outputs
  rw [List.map_map, List.map_map]
  refine List.map_congr_left fun m hm => ?_
  rw [eq_moment_of_mem hm]
  exact hout _ _ (hinv m hm).1 (hok m hm)

end Pair

section Side

variable {step : Step σ ι ω} {J : σ → σ → Prop} {I : ι → ι → Prop}
  {A B : Moment σ ι ω → Moment σ ι ω → Prop}

/-- The simulation rule for two runs side by side: a relation between the states that steps on
related inputs keep, and under which they show `A`, makes the runs show `A` throughout. -/
theorem forall₂_trace
    (hstep : ∀ s t i j, J s t → I i j →
      A (moment step s i) (moment step t j) ∧ J (step s i).1 (step t j).1)
    {s t : σ} {is js : List ι} (h0 : J s t) (his : List.Forall₂ I is js) :
    List.Forall₂ A (trace step s is) (trace step t js) := by
  induction his generalizing s t with
  | nil => exact .nil
  | cons hi _ ih =>
    obtain ⟨ha, hj⟩ := hstep _ _ _ _ h0 hi
    exact .cons ha (ih hj)

/-- The exact rule for two runs side by side. -/
theorem forall₂_trace_iff
    (hiff : ∀ s t i j, J s t → I i j →
      (A (moment step s i) (moment step t j) ↔ B (moment step s i) (moment step t j)))
    (hstep : ∀ s t i j, J s t → I i j → B (moment step s i) (moment step t j) →
      J (step s i).1 (step t j).1)
    {s t : σ} {is js : List ι} (h0 : J s t) (his : List.Forall₂ I is js) :
    List.Forall₂ A (trace step s is) (trace step t js) ↔
      List.Forall₂ B (trace step s is) (trace step t js) := by
  induction his generalizing s t with
  | nil => exact iff_of_true .nil .nil
  | cons hi _ ih =>
    rw [trace, trace, List.forall₂_cons, List.forall₂_cons, hiff _ _ _ _ h0 hi]
    apply and_congr_right
    intro hb
    exact ih (hstep _ _ _ _ h0 hi hb)

end Side

end Machine
