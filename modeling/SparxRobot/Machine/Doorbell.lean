import Mathlib.Data.List.Pairwise
import Mathlib.Order.Lattice
import SparxRobot.Machine.LastWhere
import SparxRobot.Machine.Run

/-! Signals delivered by time stamps. One party stamps each ring; another keeps the stamp
it has seen and compares. While stamps increase the comparison tells whether the bell was
rung since the other party last looked. -/
namespace Machine

section Since

variable {α : Type*} {p q : α → Bool}

/-- There was a `p` after the latest `q`. -/
def OccursSince (p q : α → Bool) (as : List α) : Prop :=
  ∃ before a after, as = before ++ a :: after ∧ p a = true ∧ ∀ b ∈ after, q b = false

/-- It is enough to look at the latest `p`. -/
theorem occursSince_iff_latest {as : List α} : OccursSince p q as ↔
    ∃ a after, lastWhere p as = some (a, after) ∧ ∀ b ∈ after, q b = false := by
  constructor
  · rintro ⟨before, a, after, rfl, ha, hafter⟩
    cases hl : lastWhere p after with
    | none =>
      have hhere : lastWhere p (a :: after) = some (a, after) := by simp [lastWhere, hl, ha]
      exact ⟨a, after, lastWhere_append_of_some hhere, hafter⟩
    | some r =>
      have hlater : lastWhere p (a :: after) = some r := by simp [lastWhere, hl]
      obtain ⟨skipped, hsplit, -⟩ := lastWhere_split hl
      refine ⟨r.1, r.2, lastWhere_append_of_some hlater, fun b hb => hafter b ?_⟩
      simp [hsplit, hb]
  · rintro ⟨a, after, hl, hafter⟩
    obtain ⟨before, hsplit, ha⟩ := lastWhere_split hl
    exact ⟨before, a, after, hsplit, ha, hafter⟩

theorem not_occursSince_nil : ¬ OccursSince p q [] := by simp [OccursSince]

theorem occursSince_append_of_occurs {as : List α} {a : α} (ha : p a = true) :
    OccursSince p q (as ++ [a]) := ⟨as, a, [], rfl, ha, by simp⟩

theorem not_occursSince_append {as : List α} {a : α} (hp : p a = false) (hq : q a = true) :
    ¬ OccursSince p q (as ++ [a]) := by
  rintro ⟨before, b, after, hsplit, hb, hafter⟩
  rcases append_singleton_split hsplit with ⟨-, -, rfl⟩ | ⟨rest, rfl, -⟩
  · simp [hp] at hb
  · simp [hafter a (by simp)] at hq

theorem occursSince_append_iff {as : List α} {a : α} (hp : p a = false) (hq : q a = false) :
    OccursSince p q (as ++ [a]) ↔ OccursSince p q as := by
  constructor
  · rintro ⟨before, b, after, hsplit, hb, hafter⟩
    rcases append_singleton_split hsplit with ⟨-, -, rfl⟩ | ⟨rest, rfl, hrest⟩
    · simp [hp] at hb
    · exact ⟨before, b, rest, hrest, hb, fun c hc => hafter c (by simp [hc])⟩
  · rintro ⟨before, b, after, rfl, hb, hafter⟩
    refine ⟨before, b, after ++ [a], by simp, hb, fun c hc => ?_⟩
    rcases List.mem_append.mp hc with hc | hc
    · exact hafter c hc
    · rwa [List.mem_singleton.mp hc]

/-- Judging by more of the `q`s makes no difference exactly when those since the latest `p`
are none of them the only ones. -/
theorem occursSince_iff_of_imp {q' : α → Bool} (hq : ∀ a, q' a = true → q a = true)
    (as : List α) :
    (OccursSince p q as ↔ OccursSince p q' as) ↔
      ∀ a after, lastWhere p as = some (a, after) → (∀ b ∈ after, q' b = false) →
        ∀ b ∈ after, q b = false := by
  rw [occursSince_iff_latest, occursSince_iff_latest]
  constructor
  · intro hiff a after hl hafter
    obtain ⟨a', after', hl', hafter'⟩ := hiff.mpr ⟨a, after, hl, hafter⟩
    obtain ⟨-, rfl⟩ := Prod.mk.inj (Option.some.inj (hl.symm.trans hl'))
    exact hafter'
  · intro h
    constructor
    · rintro ⟨a, after, hl, hafter⟩
      refine ⟨a, after, hl, fun b hb => ?_⟩
      by_contra hc
      have hqb := hq b (by simpa using hc)
      simp [hafter b hb] at hqb
    · rintro ⟨a, after, hl, hafter⟩
      exact ⟨a, after, hl, h a after hl hafter⟩

theorem occursSince_congr {p' : α → Bool} {as : List α} (h : ∀ a ∈ as, p a = p' a) :
    OccursSince p q as ↔ OccursSince p' q as := by
  rw [occursSince_iff_latest, occursSince_iff_latest, lastWhere_congr h]

theorem occursSince_map {β : Type*} {p q : β → Bool} (f : α → β) (as : List α) :
    OccursSince p q (as.map f) ↔ OccursSince (fun a => p (f a)) (fun a => q (f a)) as := by
  simp [occursSince_iff_latest, lastWhere_map]

end Since

section Stamps

variable {α T : Type*}

/-- The element rings. -/
def Rung (rings : α → Option T) (a : α) : Bool := (rings a).isSome

/-- The stamps of a history, in order. -/
def stamps (rings : α → Option T) (h : List α) : List T := h.filterMap rings

@[simp] theorem stamps_append (rings : α → Option T) (h : List α) (a : α) :
    stamps rings (h ++ [a]) = stamps rings h ++ (rings a).toList := by
  cases ha : rings a <;> simp [stamps, ha]

end Stamps

section Doorbell

variable {σ ι ω T : Type*}

/-- Which moments of a machine ring, with what stamp, which ones look, and what each does
to the stamp of the bell and to the stamp seen. -/
structure Doorbell [LinearOrder T] (step : Step σ ι ω) (last seen : σ → T)
    (rings : Moment σ ι ω → Option T) (looks : Moment σ ι ω → Bool) : Prop where
  ring : ∀ {s i t}, rings (moment step s i) = some t →
    last (step s i).1 = t ∧ seen (step s i).1 = seen s
  look : ∀ {s i}, looks (moment step s i) = true → rings (moment step s i) = none ∧
    last (step s i).1 = last s ∧ seen (step s i).1 = max (seen s) (last s)
  idle : ∀ {s i}, rings (moment step s i) = none → looks (moment step s i) = false →
    last (step s i).1 = last s ∧ seen (step s i).1 = seen s

variable [LinearOrder T] {step : Step σ ι ω} {last seen : σ → T}
  {rings : Moment σ ι ω → Option T} {looks : Moment σ ι ω → Bool}

namespace Doorbell

/-- What holds in any order of stamps: the bell shows the latest ring, and what is seen
never falls below the stamp `t₀` it started with. -/
private structure Tracks (last seen : σ → T) (rings : Moment σ ι ω → Option T) (t₀ : T)
    (h : List (Moment σ ι ω)) (s : σ) : Prop where
  latest : ∀ x after, lastWhere (Rung rings) h = some (x, after) → rings x = some (last s)
  unrung : lastWhere (Rung rings) h = none → last s = t₀
  floor : t₀ ≤ seen s

private theorem Tracks.advance (hd : Doorbell step last seen rings looks) {t₀ : T}
    {h : List (Moment σ ι ω)} {s : σ} (ht : Tracks last seen rings t₀ h s) (i : ι) :
    Tracks last seen rings t₀ (h ++ [moment step s i]) (step s i).1 := by
  obtain ⟨hlatest, hunrung, hfloor⟩ := ht
  cases hr : rings (moment step s i) with
  | some t =>
    obtain ⟨hlast, hseen⟩ := hd.ring hr
    have hhit : Rung rings (moment step s i) = true := by simp [Rung, hr]
    rw [← hlast] at hr
    constructor
    · intro x after hx
      rw [lastWhere_append_hit hhit] at hx
      obtain ⟨rfl, -⟩ := Prod.mk.inj (Option.some.inj hx)
      exact hr
    · simp [lastWhere_append_hit hhit]
    · rwa [hseen]
  | none =>
    have hkeep : last (step s i).1 = last s ∧ seen s ≤ seen (step s i).1 := by
      cases hl : looks (moment step s i) with
      | true =>
        obtain ⟨-, hlast, hseen⟩ := hd.look hl
        exact ⟨hlast, hseen ▸ le_max_left _ _⟩
      | false =>
        obtain ⟨hlast, hseen⟩ := hd.idle hr hl
        exact ⟨hlast, hseen.ge⟩
    have hmiss : Rung rings (moment step s i) = false := by simp [Rung, hr]
    constructor
    · intro x after hx
      rw [lastWhere_append_miss hmiss, Option.map_eq_some_iff] at hx
      obtain ⟨⟨y, rest⟩, hy, heq⟩ := hx
      obtain ⟨rfl, -⟩ := Prod.mk.inj heq
      rw [hkeep.1]
      exact hlatest y rest hy
    · intro hn
      rw [lastWhere_append_miss hmiss, Option.map_eq_none_iff] at hn
      exact hkeep.1.trans (hunrung hn)
    · exact hfloor.trans hkeep.2

private theorem tracks_run (hd : Doorbell step last seen rings looks) {s : σ} {is : List ι}
    (h0 : seen s = last s) {h t : List (Moment σ ι ω)} {m : Moment σ ι ω}
    (ht : trace step s is = h ++ m :: t) : Tracks last seen rings (last s) h m.pre := by
  have hstart : Tracks last seen rings (last s) [] s := ⟨by simp, fun _ => rfl, h0.ge⟩
  have hstep : ∀ h u i, Tracks last seen rings (last s) h u → True →
      Tracks last seen rings (last s) (h ++ [moment step u i]) (step u i).1 :=
    fun _ _ i ht _ => ht.advance hd i
  obtain ⟨hinv, -⟩ := history_invariant hstep hstart fun (_ : Moment σ ι ω) _ => trivial
  exact hinv h m t ht

/-- What is seen never falls below the stamp a run starts with. -/
theorem le_seen (hd : Doorbell step last seen rings looks) {s : σ} {is : List ι}
    (h0 : seen s = last s) {h t : List (Moment σ ι ω)} {m : Moment σ ι ω}
    (ht : trace step s is = h ++ m :: t) : last s ≤ seen m.pre :=
  (hd.tracks_run h0 ht).floor

/-- In any order of stamps a pending bell shows the latest ring there was. -/
theorem latest_of_pending (hd : Doorbell step last seen rings looks) {s : σ} {is : List ι}
    (h0 : seen s = last s) {h t : List (Moment σ ι ω)} {m : Moment σ ι ω}
    (ht : trace step s is = h ++ m :: t) (hp : seen m.pre < last m.pre) :
    ∃ x after, lastWhere (Rung rings) h = some (x, after) ∧ rings x = some (last m.pre) := by
  obtain ⟨hlatest, hunrung, hfloor⟩ := hd.tracks_run h0 ht
  cases hl : lastWhere (Rung rings) h with
  | none => exact absurd hp (not_lt.mpr (hunrung hl ▸ hfloor))
  | some x => exact ⟨x.1, x.2, rfl, hlatest x.1 x.2 hl⟩

/-- What holds while stamps increase. -/
private structure Keeps (last seen : σ → T) (rings : Moment σ ι ω → Option T)
    (looks : Moment σ ι ω → Bool) (t₀ : T) (h : List (Moment σ ι ω)) (s : σ) : Prop where
  mem : last s ∈ t₀ :: stamps rings h
  le : seen s ≤ last s
  pending : seen s < last s ↔ OccursSince (Rung rings) looks h

private theorem Keeps.advance (hd : Doorbell step last seen rings looks) {t₀ : T}
    {h : List (Moment σ ι ω)} {s : σ} (hk : Keeps last seen rings looks t₀ h s) (i : ι)
    (hinc : (t₀ :: stamps rings (h ++ [moment step s i])).Pairwise (· < ·)) :
    Keeps last seen rings looks t₀ (h ++ [moment step s i]) (step s i).1 := by
  obtain ⟨hmem, hle, hpending⟩ := hk
  rw [stamps_append] at hinc
  cases hr : rings (moment step s i) with
  | some t =>
    obtain ⟨hlast, hseen⟩ := hd.ring hr
    rw [hr, ← List.cons_append, List.pairwise_append] at hinc
    have hnew : seen s < t := hle.trans_lt (hinc.2.2 _ hmem t (by simp))
    refine ⟨by simp [hr, hlast], ?_, ?_⟩
    · rw [hlast, hseen]
      exact hnew.le
    · rw [hlast, hseen]
      exact iff_of_true hnew (occursSince_append_of_occurs (by simp [Rung, hr]))
  | none =>
    have hmiss : Rung rings (moment step s i) = false := by simp [Rung, hr]
    cases hl : looks (moment step s i) with
    | true =>
      obtain ⟨-, hlast, hseen⟩ := hd.look hl
      rw [max_eq_right hle] at hseen
      refine ⟨by simpa [hr, hlast] using hmem, by rw [hlast, hseen], ?_⟩
      rw [hlast, hseen]
      exact iff_of_false (lt_irrefl _) (not_occursSince_append hmiss hl)
    | false =>
      obtain ⟨hlast, hseen⟩ := hd.idle hr hl
      refine ⟨by simpa [hr, hlast] using hmem, by rwa [hlast, hseen], ?_⟩
      rw [hlast, hseen, hpending, occursSince_append_iff hmiss hl]

/-- The delivery rule: while stamps increase, the bell is pending exactly when it was rung
since the party last looked. -/
theorem pending_iff (hd : Doorbell step last seen rings looks) {s : σ} {is : List ι}
    (h0 : seen s = last s)
    (hinc : (last s :: stamps rings (trace step s is)).Pairwise (· < ·))
    {h t : List (Moment σ ι ω)} {m : Moment σ ι ω} (ht : trace step s is = h ++ m :: t) :
    seen m.pre < last m.pre ↔ OccursSince (Rung rings) looks h := by
  let Inv : List (Moment σ ι ω) → σ → Prop := fun h u =>
    (last s :: stamps rings h).Pairwise (· < ·) → Keeps last seen rings looks (last s) h u
  have hstep : ∀ h u i, Inv h u → True → Inv (h ++ [moment step u i]) (step u i).1 := by
    intro h u i hinv _ hinc
    have hprefix : (last s :: stamps rings h).Pairwise (· < ·) := by
      rw [stamps_append, ← List.cons_append] at hinc
      exact (List.pairwise_append.mp hinc).1
    exact (hinv hprefix).advance hd i hinc
  have hstart : Inv [] s := fun _ =>
    ⟨by simp, h0.le, iff_of_false (not_lt.mpr h0.ge) not_occursSince_nil⟩
  obtain ⟨hinv, -⟩ := history_invariant hstep hstart fun (_ : Moment σ ι ω) _ => trivial
  refine (hinv h m t ht ?_).pending
  rw [ht, stamps, List.filterMap_append, ← List.cons_append] at hinc
  exact (List.pairwise_append.mp hinc).1

end Doorbell

end Doorbell

end Machine
