import Mathlib.Data.Int.Notation
import Mathlib.Data.List.Basic
import Mathlib.Tactic.Common

/-! Autonomous scripts: tables of integers whose rows start with a command number. -/
namespace SparxRobot.Autonomous

/-- The command numbers of `Autonomous`. A number no constant names is `unknown`. -/
inductive Command where
  | drivesForward | drivesTurn | drivesMove | drivesLift | drivesSetCoords | drivesStop
  | ballacqToggle | shooterToggle | shooterSetup | shooterTurret
  | backgroundDelay | delay | setCritStep | drivesDone | waiting | autoEnd | hold
  | unknown (code : ℤ)
  deriving DecidableEq, Repr

namespace Command

def ofCode : ℤ → Command
  | 1 => .drivesForward
  | 2 => .drivesTurn
  | 3 => .drivesMove
  | 4 => .drivesLift
  | 5 => .drivesSetCoords
  | 6 => .drivesStop
  | 7 => .ballacqToggle
  | 8 => .shooterToggle
  | 9 => .shooterSetup
  | 11 => .shooterTurret
  | 94 => .backgroundDelay
  | 95 => .delay
  | 96 => .setCritStep
  | 97 => .drivesDone
  | 98 => .waiting
  | 99 => .autoEnd
  | 100 => .hold
  | c => .unknown c

/-- The rows that start a motion of the drives. -/
def isMotion : Command → Bool
  | drivesForward | drivesTurn | drivesMove | drivesLift => true
  | _ => false

/-- How many entries of its row, the command number included, a case reads. -/
def arity : Command → ℕ
  | drivesForward => 3
  | drivesTurn => 4
  | drivesMove => 4
  | drivesLift => 2
  | drivesSetCoords => 3
  | ballacqToggle => 3
  | shooterToggle => 5
  | shooterSetup => 2
  | shooterTurret => 2
  | backgroundDelay => 3
  | delay => 2
  | setCritStep => 3
  | _ => 0

end Command

abbrev Row := List ℤ
abbrev Script := List Row

namespace Script

/-- `currentAuto[step]`; `none` is the exception of an index outside the array. -/
def row (a : Script) (step : ℤ) : Option Row :=
  if step < 0 then none else a[step.toNat]?

/-- `currentAuto[step][k]`; `none` is the exception of either index. -/
def entry (a : Script) (step : ℤ) (k : ℕ) : Option ℤ :=
  (a.row step).bind fun r => r[k]?

/-- The command number of a row, decoded. -/
def command (a : Script) (step : ℤ) : Option Command :=
  (a.entry step 0).map Command.ofCode

/-- The number of entries of a row, zero where there is no row. -/
def width (a : Script) (step : ℤ) : ℕ :=
  ((a.row step).map List.length).getD 0

/-- The step index names a row. -/
def HasStep (a : Script) (step : ℤ) : Prop := 0 ≤ step ∧ step < a.length

instance (a : Script) (step : ℤ) : Decidable (a.HasStep step) := by
  unfold HasStep; infer_instance

theorem not_hasStep_nil (step : ℤ) : ¬ HasStep [] step := by
  rintro ⟨h0, hlt⟩
  rw [List.length_nil] at hlt
  omega

theorem hasStep_of_row {a : Script} {step : ℤ} {r : Row} (h : a.row step = some r) :
    a.HasStep step := by
  unfold row at h
  split at h
  · simp at h
  · next hn =>
    obtain ⟨hlt, -⟩ := List.getElem?_eq_some_iff.mp h
    exact ⟨by omega, by omega⟩

theorem width_le_of_entry {a : Script} {step : ℤ} {k : ℕ} (h : a.entry step k = none) :
    a.width step ≤ k := by
  unfold entry at h
  unfold width
  cases hr : a.row step with
  | none => simp
  | some r => simpa [hr] using h

theorem lt_width_of_entry {a : Script} {step : ℤ} {k : ℕ} {v : ℤ}
    (h : a.entry step k = some v) : k < a.width step := by
  obtain ⟨r, hr, hk⟩ := Option.bind_eq_some_iff.mp h
  obtain ⟨hlt, -⟩ := List.getElem?_eq_some_iff.mp hk
  simpa [width, hr] using hlt

theorem hasStep_of_entry {a : Script} {step : ℤ} {k : ℕ} {v : ℤ}
    (h : a.entry step k = some v) : a.HasStep step := by
  obtain ⟨r, hr, -⟩ := Option.bind_eq_some_iff.mp h
  exact hasStep_of_row hr

theorem hasStep_of_command {a : Script} {step : ℤ} {c : Command}
    (h : a.command step = some c) : a.HasStep step := by
  obtain ⟨v, hv, -⟩ := Option.map_eq_some_iff.mp h
  exact hasStep_of_entry hv

/-- A property of every row is a property of finitely many rows. -/
theorem forall_hasStep {a : Script} {P : ℤ → Prop} (h : ∀ n < a.length, P n) :
    ∀ i, a.HasStep i → P i := by
  intro i hi
  have hn := h i.toNat (by have := hi.1; have := hi.2; omega)
  rwa [Int.toNat_of_nonneg hi.1] at hn

theorem command_eq_some {a : Script} {step c : ℤ} (h : a.entry step 0 = some c) :
    a.command step = some (.ofCode c) := by
  simp [command, h]

/-- The script has a first entry in row zero. -/
def Readable (a : Script) : Prop := ∃ code, a.entry 0 0 = some code

instance (a : Script) : Decidable a.Readable :=
  decidable_of_iff ((a.entry 0 0).isSome = true) Option.isSome_iff_exists

/-- Row zero is a row a reader left readable, every row is long enough for its own
command, the last row stops the script, and critical steps name rows. -/
structure WellFormed (a : Script) : Prop where
  rowZero : ∃ c, a.entry 0 0 = some c ∧ 0 ≤ c
  nonempty : ∀ i, a.HasStep i → ∃ c, a.command i = some c
  complete : ∀ i c, a.command i = some c → c.arity ≤ a.width i
  closed : a.command (a.length - 1) = some .autoEnd ∨ a.command (a.length - 1) = some .hold
  critTarget : ∀ i t, a.command i = some .setCritStep → a.entry i 1 = some t → a.HasStep t

/-- The row-by-row part of a well-formedness check. -/
def rowCheck (a : Script) (i : ℤ) : Bool :=
  match a.command i with
  | none => false
  | some c =>
      decide (c.arity ≤ a.width i) &&
        (decide (c ≠ .setCritStep) || (a.entry i 1).all fun t => decide (a.HasStep t))

def check (a : Script) : Bool :=
  (a.entry 0 0).any (fun c => decide (0 ≤ c)) &&
    (List.range a.length).all (fun n => a.rowCheck n) &&
    (decide (a.command (a.length - 1) = some .autoEnd) ||
      decide (a.command (a.length - 1) = some .hold))

/-- The check is sound, so a concrete script is well-formed by evaluation. -/
theorem wellFormed_of_check {a : Script} (h : a.check = true) : a.WellFormed := by
  simp only [check, Bool.and_eq_true, Bool.or_eq_true, decide_eq_true_eq, List.all_eq_true,
    List.mem_range] at h
  obtain ⟨⟨hz, hrows⟩, hlast⟩ := h
  have hrow : ∀ i, a.HasStep i → a.rowCheck i = true := forall_hasStep hrows
  refine ⟨?_, ?_, ?_, hlast, ?_⟩
  · cases hc : a.entry 0 0 with
    | none => simp [hc] at hz
    | some c => exact ⟨c, rfl, by simpa [hc] using hz⟩
  · intro i hi
    have hc := hrow i hi
    unfold rowCheck at hc
    cases hcmd : a.command i with
    | none => simp [hcmd] at hc
    | some c => exact ⟨c, rfl⟩
  · intro i c hcmd
    have hc := hrow i (hasStep_of_command hcmd)
    simp only [rowCheck, hcmd, Bool.and_eq_true, decide_eq_true_eq] at hc
    exact hc.1
  · intro i t hcmd ht
    have hc := hrow i (hasStep_of_command hcmd)
    simp only [rowCheck, hcmd, ht, Bool.and_eq_true] at hc
    simpa using hc.2

/-- Background timers name rows too. -/
def BackgroundTargetsValid (a : Script) : Prop :=
  ∀ i t, a.command i = some .backgroundDelay → a.entry i 2 = some t → a.HasStep t

theorem backgroundTargetsValid_of_rows {a : Script}
    (h : ∀ n < a.length, a.command n = some .backgroundDelay →
      (a.entry n 2).all (fun t => decide (a.HasStep t)) = true) : a.BackgroundTargetsValid := by
  intro i t hc ht
  have hrow : ∀ i, a.HasStep i → a.command i = some .backgroundDelay →
      (a.entry i 2).all (fun t => decide (a.HasStep t)) = true := forall_hasStep h
  simpa [ht] using hrow i (hasStep_of_command hc) hc

/-- No row starts a background timer. -/
def NoBackgroundDelay (a : Script) : Prop :=
  ∀ i, a.command i ≠ some .backgroundDelay

theorem noBackgroundDelay_of_rows {a : Script}
    (h : ∀ n < a.length, a.command n ≠ some .backgroundDelay) : a.NoBackgroundDelay := by
  intro i hc
  have hrow : ∀ i, a.HasStep i → a.command i ≠ some .backgroundDelay := forall_hasStep h
  exact hrow i (hasStep_of_command hc) hc

end Script

/-! The scripts the class carries. -/

def TEN_BALL_RED : Script :=
  [[0], [94, 10000, 7], [5, 0, 0], [8, 1, 1425, 1, 0], [95, 500], [7, 1, 4], [7, 2, 2],
    [7, 3, 2], [9, 1], [100], [99]]

def TEN_BALL_BLUE : Script :=
  [[0], [94, 10000, 7], [5, 0, 0], [8, 1, 1425, 1, 0], [95, 500], [7, 1, 4], [7, 2, 2],
    [7, 3, 3], [9, 1], [100], [2, -80, 30, 2], [1, -96, 40], [99]]

def FOURTY_BALL_RED : Script :=
  [[0], [5, 0, 0], [8, 1, 1575, 0, 60], [11, 6], [7, 1, 4], [7, 2, 2], [1, -134, 66],
    [2, -75, 48, 2], [1, 31, 60], [7, 3, 2], [2, 20, 48, 2], [95, 250], [9, 1], [100]]

/-- The documented script that drives over the line. -/
def DRIVING_FORWARD : Script := [[0], [5, 0, 0], [1, 86, 40], [99]]

/-- The chooser's default, one row that ends autonomous. -/
def EMPTY : Script := [[99]]

end SparxRobot.Autonomous
