import Mathlib.Order.Interval.Set.Defs
import Mathlib.Tactic.Linarith
import SparxRobot.Shooter.Command

/-! The two maps from the distance of the boiler to the set points of a shot. Each piece
rises; between the second and the third piece of the speed there is a drop. -/
namespace SparxRobot.Shooter
open Machine

/-- From the farther place the shot is set neither slower nor lower, and both shrouds are in
the range of the manual control. -/
def NeverLess (s t : ShooterState) : Prop :=
  distanceToSpeed s ≤ distanceToSpeed t ∧ distanceToShroud s ≤ distanceToShroud t ∧
    distanceToShroud s ∈ Set.Icc (0 : ℚ) 0.5 ∧ distanceToShroud t ∈ Set.Icc (0 : ℚ) 0.5

/-- Across 85 the farther place is far enough beyond it to make up for the drop. -/
def MakesUp (s t : ShooterState) : Prop :=
  s.targetDistance < 85 → 85 ≤ t.targetDistance →
    (s.targetDistance - 35) * 1.5 ≤ 50 + (t.targetDistance - 85) * 7.6

section Maps

variable {s t : ShooterState}

theorem distanceToSpeed_near (h : s.targetDistance < 85) :
    distanceToSpeed s = max 1400 (1400 + (s.targetDistance - 35) * 1.5) := by
  unfold distanceToSpeed speedForDistance
  simp only [id_eq]
  split
  · exact (max_eq_left (by linarith)).symm
  · exact (max_eq_right (by linarith)).symm

theorem distanceToSpeed_far (h : 85 ≤ s.targetDistance) :
    distanceToSpeed s = 1450 + (s.targetDistance - 85) * 7.6 := by
  unfold distanceToSpeed speedForDistance
  simp only [id_eq]
  rw [if_neg (by linarith), if_neg (by linarith)]

theorem distanceToSpeed_le_iff (h : s.targetDistance ≤ t.targetDistance) :
    distanceToSpeed s ≤ distanceToSpeed t ↔ MakesUp s t := by
  unfold MakesUp
  rcases lt_or_ge t.targetDistance 85 with ht | ht
  · have hs := h.trans_lt ht
    rw [distanceToSpeed_near hs, distanceToSpeed_near ht]
    refine iff_of_true (max_le_max le_rfl (by linarith)) fun _ hfar => absurd hfar (not_le.mpr ht)
  · rcases lt_or_ge s.targetDistance 85 with hs | hs
    · rw [distanceToSpeed_near hs, distanceToSpeed_far ht, max_le_iff]
      constructor
      · rintro ⟨-, hle⟩ _ _
        linarith
      · intro hup
        have hle := hup hs ht
        exact ⟨by linarith, by linarith⟩
    · rw [distanceToSpeed_far hs, distanceToSpeed_far ht]
      exact iff_of_true (by linarith) fun hnear => absurd hnear (not_lt.mpr hs)

theorem distanceToShroud_mem (s : ShooterState) : distanceToShroud s ∈ Set.Icc (0 : ℚ) 0.5 := by
  unfold distanceToShroud
  split_ifs <;> constructor <;> linarith

theorem distanceToShroud_mono (h : s.targetDistance ≤ t.targetDistance) :
    distanceToShroud s ≤ distanceToShroud t := by
  obtain ⟨ht, -⟩ := distanceToShroud_mem t
  obtain ⟨-, hs⟩ := distanceToShroud_mem s
  unfold distanceToShroud at *
  split_ifs at * <;> linarith

/-- Going farther the set points never fall exactly when the drop at 85 is made up for. -/
theorem neverLess_iff (s t : ShooterState) (h : s.targetDistance ≤ t.targetDistance) :
    NeverLess s t ↔ MakesUp s t := by
  rw [← distanceToSpeed_le_iff h]
  constructor
  · exact fun hless => hless.1
  · exact fun hspeed => ⟨hspeed, distanceToShroud_mono h, distanceToShroud_mem s,
      distanceToShroud_mem t⟩

/-- A shooter that sees the boiler at this distance. -/
def seenAt (distance : ℚ) : ShooterState := { targetDistance := distance }

theorem neverLess_iff_across :
    NeverLess (seenAt 68) (seenAt 85) ↔ MakesUp (seenAt 68) (seenAt 85) :=
  neverLess_iff _ _ (by decide +kernel)

/-- An inch beyond 84 the flywheel is set slower. -/
theorem slower_at_85 : ¬ ∀ s t : ShooterState, s.targetDistance ≤ t.targetDistance →
    NeverLess s t := by
  intro hall
  have hspeed := (hall (seenAt 84) (seenAt 85) (by decide +kernel)).1
  exact absurd hspeed (by decide +kernel)

end Maps

end SparxRobot.Shooter
