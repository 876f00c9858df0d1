import SparxRobot.Drives.Command

/-! Standing by means standing still: the ways into standby stop both wheels, but for the end
of a hold and a travel after a finished drive. -/
namespace SparxRobot.Drives
open Machine

variable {R : Type*} [Field R] [LinearOrder R]

/-- Both wheels are wanted to stand. -/
def WheelsStopped (s : DrivesState R) : Prop := s.rightWantedSpeed = 0 ∧ s.leftWantedSpeed = 0

/-- Standby and disabled mean that both wheels are wanted to stand. -/
def StandsStill (s : DrivesState R) : Prop :=
  s.currentDriveState = .standby ∨ s.currentDriveState = .disabled → WheelsStopped s

/-- A hold is at its end, or a travel is accepted after a finished drive. -/
def StandsByDirectly (m : DrivesMoment R) : Prop :=
  ((∃ r, m.input = .execute r) ∧ m.pre.currentDriveState = .autoHold ∧ m.pre.turnDone = true) ∨
    ((∃ angle x y driveSpeed turnSpeed,
        m.input = .command (.travelToCoordinate angle x y driveSpeed turnSpeed)) ∧
      isAutoDone m.pre = true ∧ m.pre.driveDone = true)

section Motions

variable (r : DrivesReading R) {s : DrivesState R}

/-- A motion goes on in its state or has stopped the wheels. -/
def GoesOnOrStops (was : DriveState) (t : DrivesState R) : Prop :=
  t.currentDriveState = was ∨ WheelsStopped t

theorem driveDistance_stops : GoesOnOrStops s.currentDriveState (driveDistance r s) := by
  unfold driveDistance
  extract_lets
  split
  · exact .inr ⟨rfl, rfl⟩
  · exact .inl rfl

theorem drivePoint_stops [FloorRing R] [JavaMath R] :
    GoesOnOrStops s.currentDriveState (drivePoint r s) := by
  unfold drivePoint
  extract_lets
  split
  · exact .inr ⟨rfl, rfl⟩
  · exact .inl rfl

theorem turn_stops [FloorRing R] : GoesOnOrStops s.currentDriveState (turn s) := by
  unfold turn
  extract_lets
  split
  · exact .inr ⟨rfl, rfl⟩
  · split <;> exact .inl rfl

theorem stopDrives_stops : WheelsStopped (stopDrives s).1 := by
  unfold stopDrives
  extract_lets
  split <;> exact ⟨rfl, rfl⟩

/-- The end of a hold leaves the wheels as they are. -/
theorem hold_wheels (h : s.currentDriveState = .autoHold) :
    (hold r s).currentDriveState = (if s.turnDone then .standby else .autoHold) ∧
      (hold r s).rightWantedSpeed = s.rightWantedSpeed ∧
      (hold r s).leftWantedSpeed = s.leftWantedSpeed := by
  rw [hold_eq r s h]
  exact ⟨rfl, rfl, rfl⟩

theorem GoesOnOrStops.standsStill {was : DriveState} {t : DrivesState R}
    (hw : was ≠ .standby ∧ was ≠ .disabled) (h : GoesOnOrStops was t) : StandsStill t := by
  intro hs
  rcases h with rfl | h
  · exact absurd hs (not_or.mpr hw)
  · exact h

end Motions

section Step

variable [FloorRing R] [JavaMath R] {s : DrivesState R}

theorem standsStill_runState (r : DrivesReading R) (hs : StandsStill s)
    (hh : s.currentDriveState = .autoHold → s.turnDone = true → WheelsStopped s) :
    StandsStill (runState r s) := by
  unfold runState
  cases hc : s.currentDriveState <;> simp only
  case standby =>
    have hstopped : WheelsStopped s := hs (.inl hc)
    split
    · exact fun _ => hstopped
    · split <;> exact fun _ => hstopped
  case disabled => exact fun _ => ⟨rfl, rfl⟩
  case autoAbort => exact fun _ => ⟨rfl, rfl⟩
  case autoStop => exact fun _ => stopDrives_stops
  case autoDriveDistance =>
    exact (driveDistance_stops r).standsStill ⟨by simp [hc], by simp [hc]⟩
  case autoDrivePoint => exact (drivePoint_stops r).standsStill ⟨by simp [hc], by simp [hc]⟩
  case autoTurn => exact turn_stops.standsStill ⟨by simp [hc], by simp [hc]⟩
  case teleop =>
    intro h
    simp [(teleop_kept r s).1, hc] at h
  case autoHold =>
    obtain ⟨hstate, hright, hleft⟩ := hold_wheels r hc
    intro h
    cases ht : s.turnDone with
    | true => exact ⟨hright.trans (hh hc ht).1, hleft.trans (hh hc ht).2⟩
    | false => simp [hstate, ht] at h

/-- Every step keeps it that a standing robot stands still, if what stands by directly has
stopped before. -/
theorem standsStill_step (hs : StandsStill s) (e : DrivesEvent R)
    (hd : StandsByDirectly (moment drivesStep s e) → WheelsStopped s) :
    StandsStill (drivesStep s e).1 := by
  cases e with
  | execute r =>
    have hrun := standsStill_runState (s := sense r s) r hs
      fun hc ht => hd (.inl ⟨⟨r, rfl⟩, hc, ht⟩)
    unfold StandsStill WheelsStopped at hrun ⊢
    simp only [drivesStep]
    rwa [execute_currentDriveState, execute_rightWantedSpeed, execute_leftWantedSpeed]
  | abortAuto =>
    intro h
    simp [drivesStep, abortAuto] at h
  | stopDrives => exact fun _ => stopDrives_stops
  | setStartingCoordinate angle x y => exact hs
  | command c =>
    cases hdone : isAutoDone s with
    | false =>
      have hsame : drivesStep s (.command c) = (s, false) := issue_refused c hdone
      exact hsame ▸ hs
    | true =>
      obtain ⟨-, hright, hleft, hengaged | ⟨⟨angle, x, y, v, w, rfl⟩, hdrive⟩⟩ :=
        issue_accepted c hdone
      · intro (h : (issue c s).1.currentDriveState = _ ∨ (issue c s).1.currentDriveState = _)
        rcases h with h | h <;> simp [h, DriveState.isEngaged] at hengaged
      · obtain ⟨h1, h2⟩ := hd (.inr ⟨⟨angle, x, y, v, w, rfl⟩, hdone, hdrive⟩)
        exact fun _ => ⟨hright.trans h1, hleft.trans h2⟩

/-- What stands by directly has the wheels it found. -/
theorem stopped_of_standsByDirectly {e : DrivesEvent R}
    (hd : StandsByDirectly (moment drivesStep s e)) (hs : StandsStill (drivesStep s e).1) :
    WheelsStopped s := by
  rcases hd with ⟨⟨r, hr⟩, hc, ht⟩ | ⟨⟨angle, x, y, v, w, hr⟩, hdone, hdrive⟩
  · obtain rfl : e = .execute r := hr
    have hrun : runState r (sense r s) = hold r (sense r s) := by
      rw [runState, sense_currentDriveState, show s.currentDriveState = .autoHold from hc]
    obtain ⟨hstate, hright, hleft⟩ := hold_wheels (s := sense r s) r hc
    have hstandby : (execute r s).currentDriveState = .standby := by
      rw [execute_currentDriveState, hrun, hstate]
      exact if_pos ht
    obtain ⟨h1, h2⟩ := hs (.inl hstandby)
    rw [drivesStep, execute_rightWantedSpeed, hrun, hright] at h1
    rw [drivesStep, execute_leftWantedSpeed, hrun, hleft] at h2
    exact ⟨h1, h2⟩
  · obtain rfl : e = .command (.travelToCoordinate angle x y v w) := hr
    obtain ⟨-, hstate, -, -, hright, hleft⟩ := travelToCoordinate_accepted angle x y v w hdone
    rw [if_pos hdrive] at hstate
    obtain ⟨h1, h2⟩ := hs (.inl hstate)
    exact ⟨hright.symm.trans h1, hleft.symm.trans h2⟩

end Step

section Run

variable [FloorRing R] [JavaMath R]

/-- Over every run from power-on, standing by always means standing still exactly when the
wheels have been stopped before a hold ends and before a travel after a finished drive. -/
theorem stands_still_iff (events : List (DrivesEvent R)) :
    (∀ m ∈ trace drivesStep ({} : DrivesState R) events, StandsStill m.post) ↔
      ∀ m ∈ trace drivesStep ({} : DrivesState R) events,
        StandsByDirectly m → WheelsStopped m.pre := by
  have h0 : StandsStill ({} : DrivesState R) := fun _ => ⟨rfl, rfl⟩
  apply invariant_iff _ h0
  intro s e hs
  constructor
  · intro hpost hd
    exact stopped_of_standsByDirectly hd hpost
  · intro hd
    exact standsStill_step hs e hd

/-- A short drive that ends at once, then the stick in operator control, then a travel. -/
def drivenThenTravel (R : Type*) [Field R] : List (DrivesEvent R) :=
  [.command (.autoDriveDistance 0 0.5 40.0), .execute {},
    .execute { mode := .teleopEnabled }, .execute { mode := .teleopEnabled, rightStick := 1 },
    .command (.travelToCoordinate 0 10.0 10.0 40.0 40.0)]

/-- The stick moves a wheel, whichever way the drives are turned. -/
private theorem execute_stick {r : DrivesReading ℝ} {s : DrivesState ℝ}
    (hr : r.rightStick = 1) (hs : s.currentDriveState = .teleop) :
    ¬ WheelsStopped (execute r s) ∧ (execute r s).autoReady = s.autoReady ∧
      (execute r s).driveDone = s.driveDone := by
  have hrun : runState r (sense r s) = teleop r (sense r s) := by
    rw [runState, sense_currentDriveState, hs]
  obtain ⟨-, hready, hdone⟩ := teleop_kept r (sense r s)
  unfold WheelsStopped
  rw [execute_rightWantedSpeed, execute_leftWantedSpeed, execute_autoReady, execute_driveDone,
    hrun]
  refine ⟨?_, hready, hdone⟩
  unfold teleop setTankSpeed
  extract_lets
  split <;> simp [hr, MAX_SPEED]

/-- A drive that has come as far as it should, but for half an inch, is over. -/
private theorem driveDistance_arrived {r : DrivesReading ℝ} {s : DrivesState ℝ}
    (hslow : s.averageSpeed = 0)
    (hd : |s.wantedDistance - 0.5| ≤ (|r.rightDistance| + |r.leftDistance|) / 2) :
    (driveDistance r s).currentDriveState = .standby ∧ (driveDistance r s).driveDone = true := by
  unfold driveDistance
  simp only [hslow, abs_zero, show ¬(0 : ℝ) > 16 by norm_num, ↓reduceIte, ge_iff_le, if_pos hd]
  exact ⟨rfl, rfl⟩

/-- The travel goes to standby with the speed the stick asked for. -/
theorem drivenThenTravel_keeps_driving :
    ¬ ∀ events, ∀ m ∈ trace drivesStep ({} : DrivesState ℝ) events, StandsStill m.post := by
  intro hall
  let s₁ := (drivesStep ({} : DrivesState ℝ) (.command (.autoDriveDistance 0 0.5 40.0))).1
  let s₂ := execute {} s₁
  let s₃ := execute { mode := .teleopEnabled } s₂
  let s₄ : DrivesState ℝ := execute { mode := .teleopEnabled, rightStick := 1 } s₃
  have hrun : runState {} (sense {} s₁) = driveDistance {} (sense {} s₁) := by
    rw [runState, sense_currentDriveState]
    rfl
  have h₂ : s₂.currentDriveState = .standby ∧ s₂.driveDone = true := by
    rw [execute_currentDriveState, execute_driveDone, hrun]
    apply driveDistance_arrived
    · simp [sense]
    · simp [s₁, drivesStep, issue, autoDriveDistance, isAutoDone, sense]
  obtain ⟨hteleop, hready₃, hdone₃⟩ := execute_standby (r := { mode := .teleopEnabled }) rfl h₂.1
  obtain ⟨hmoving, hready₄, hdone₄⟩ :=
    execute_stick (r := { mode := .teleopEnabled, rightStick := 1 }) rfl hteleop
  have hdone : isAutoDone s₄ = true := isAutoDone_of_autoReady (hready₄.trans hready₃)
  obtain ⟨-, hstate, -, -, hright, hleft⟩ :=
    travelToCoordinate_accepted (s := s₄) 0 10.0 10.0 40.0 40.0 hdone
  rw [show s₄.driveDone = true from hdone₄.trans (hdone₃.trans h₂.2), if_pos rfl] at hstate
  have hlast : moment drivesStep s₄ (.command (.travelToCoordinate 0 10.0 10.0 40.0 40.0)) ∈
      trace drivesStep ({} : DrivesState ℝ) (drivenThenTravel ℝ) := by
    simp only [drivenThenTravel, trace]
    exact .tail _ (.tail _ (.tail _ (.tail _ (.head _))))
  obtain ⟨h1, h2⟩ := hall _ _ hlast (.inl hstate)
  exact hmoving ⟨hright.symm.trans h1, hleft.symm.trans h2⟩

end Run

end SparxRobot.Drives
