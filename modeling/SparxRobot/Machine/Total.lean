import Mathlib.Algebra.BigOperators.Group.List.Lemmas
import Mathlib.Analysis.Normed.Group.Basic
import SparxRobot.Machine.Run

/-! Amounts added up over a run: what a part of the state has grown by when every step adds to
it what the moment shows. -/
namespace Machine

variable {σ ι ω M N : Type*} {step : Step σ ι ω}

section Monoid

variable [AddMonoid M]

/-- What the moments of a run add up to. -/
def total (step : Step σ ι ω) (amount : Moment σ ι ω → M) (s : σ) (is : List ι) : M :=
  ((trace step s is).map amount).sum

variable {amount : Moment σ ι ω → M}

@[simp] theorem total_nil (s : σ) : total step amount s [] = 0 := rfl

@[simp] theorem total_cons (s : σ) (i : ι) (is : List ι) :
    total step amount s (i :: is) =
      amount (moment step s i) + total step amount (step s i).1 is := by
  simp [total, trace]

/-- The telescoping rule: what every admissible step adds to a part of the state, the part has
grown by at the end of the run. -/
theorem final_eq_add_total {f : σ → M} {P : σ → Prop} {Ok : σ → ι → Prop}
    (hstep : ∀ s i, P s → Ok s i → P (step s i).1)
    (hadd : ∀ s i, P s → Ok s i → f (step s i).1 = f s + amount (moment step s i)) {s : σ}
    {is : List ι} (h0 : P s) (hok : ∀ m ∈ trace step s is, Ok m.pre m.input) :
    f (final step s is) = f s + total step amount s is := by
  induction is generalizing s with
  | nil => simp [final]
  | cons i is ih =>
    have hi : Ok s i := hok (moment step s i) (by simp [trace])
    have htail := ih (hstep s i h0 hi) fun m hm => hok m (List.mem_cons_of_mem _ hm)
    rw [final, htail, hadd s i h0 hi, total_cons, add_assoc]

theorem total_congr {amount' : Moment σ ι ω → M} {s : σ} {is : List ι}
    (h : ∀ m ∈ trace step s is, amount m = amount' m) :
    total step amount s is = total step amount' s is :=
  congrArg List.sum (List.map_congr_left h)

theorem map_total [AddMonoid N] (g : M →+ N) (s : σ) (is : List ι) :
    g (total step amount s is) = total step (fun m => g (amount m)) s is := by
  simp only [total, map_list_sum, List.map_map, Function.comp_def]

end Monoid

/-- The triangle inequality along a run. -/
theorem norm_total_le [SeminormedAddCommGroup M] (amount : Moment σ ι ω → M) (s : σ)
    (is : List ι) :
    ‖total step amount s is‖ ≤ total step (fun m => ‖amount m‖) s is := by
  induction is generalizing s with
  | nil => simp
  | cons i is ih =>
    rw [total_cons, total_cons]
    exact (norm_add_le _ _).trans (add_le_add_right (ih _) _)

end Machine
