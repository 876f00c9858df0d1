import SparxRobot.Drives.Command

/-! One drive command at a time: a command that is accepted keeps the drives until its motion
ends or is stopped, provided it puts `autoReady` down. -/
namespace SparxRobot.Drives
open Machine

variable {R : Type*} [Field R] [LinearOrder R]

/-- The moment is a command that was accepted. -/
def Accepts (m : DrivesMoment R) : Prop := (∃ c, m.input = .command c) ∧ m.output = true

/-- The iteration brings the motion in progress to its end. -/
def Completes (m : DrivesMoment R) : Prop :=
  (∃ r, m.input = .execute r) ∧ m.pre.currentDriveState.isEngaged = true ∧
    m.post.currentDriveState = .standby

/-- The motion ends, or is called off. -/
def Releases (m : DrivesMoment R) : Prop :=
  Completes m ∨ m.input = .abortAuto ∨ m.input = .stopDrives

/-- The call is refused and leaves the drive state and the orders as they were. -/
def RefusedUnchanged (m : DrivesMoment R) : Prop :=
  m.output = false ∧ m.post.currentDriveState = m.pre.currentDriveState ∧
    m.post.wantedSpeed = m.pre.wantedSpeed ∧ m.post.wantedDistance = m.pre.wantedDistance ∧
    m.post.wantedAngle = m.pre.wantedAngle ∧ m.post.initialHeading = m.pre.initialHeading ∧
    m.post.endX = m.pre.endX ∧ m.post.endY = m.pre.endY

/-- From the moment a command is accepted, as long as its motion is not released, the drives
are not done and refuse every further command. -/
def OneAtATime (T : List (DrivesMoment R)) : Prop :=
  ∀ h m during t, T = h ++ m :: (during ++ t) → Accepts m → (∀ x ∈ during, ¬ Releases x) →
    isAutoDone m.post = false ∧ ∀ x ∈ during, isAutoDone x.post = false ∧
      ((∃ c, x.input = .command c) → RefusedUnchanged x)

/-- What an accepted command has to find for the drives to be taken: two of them leave
`autoReady` as it is, and a travel ends at once after a finished drive. -/
def Takes (c : DriveCommand R) (s : DrivesState R) : Prop :=
  match c with
  | .holdDrives | .autoTurnLift .. => s.autoReady = false
  | .travelToCoordinate .. => s.driveDone = false
  | _ => True

/-- If the moment is a command that is accepted, it takes the drives. -/
def TakesDrives (m : DrivesMoment R) : Prop :=
  ∀ c, m.input = .command c → isAutoDone m.pre = true → Takes c m.pre

/-- A motion has the drives, and `autoReady` is down. -/
def Occupied (s : DrivesState R) : Prop :=
  s.currentDriveState.isEngaged = true ∧ s.autoReady = false

theorem Occupied.busy {s : DrivesState R} (h : Occupied s) : isAutoDone s = false := by
  obtain ⟨hstate, hready⟩ := h
  refine isAutoDone_eq_false.mpr ⟨fun hs => ?_, hready⟩
  simp [hs, DriveState.isEngaged] at hstate

section Step

variable [JavaMath R] {s : DrivesState R}

/-- An accepted command that leaves the drives not done occupies them. -/
theorem issue_occupies (c : DriveCommand R) (h : isAutoDone s = true) :
    isAutoDone (issue c s).1 = false → Occupied (issue c s).1 := by
  intro hbusy
  obtain ⟨hstate, hready⟩ := isAutoDone_eq_false.mp hbusy
  obtain ⟨-, -, -, hengaged | ⟨⟨angle, x, y, driveSpeed, turnSpeed, rfl⟩, hd⟩⟩ :=
    issue_accepted c h
  · exact ⟨hengaged, hready⟩
  · obtain ⟨-, hstandby, -⟩ := travelToCoordinate_accepted angle x y driveSpeed turnSpeed h
    rw [hd] at hstandby
    exact absurd hstandby hstate

/-- Which accepted commands leave the drives not done. -/
theorem issue_busy_iff (c : DriveCommand R) (h : isAutoDone s = true) :
    isAutoDone (issue c s).1 = false ↔ Takes c s := by
  rw [isAutoDone_eq_false]
  cases c with
  | travelToCoordinate angle x y driveSpeed turnSpeed =>
    obtain ⟨-, hstate, hready, -⟩ := travelToCoordinate_accepted angle x y driveSpeed turnSpeed h
    simp only [issue, hstate, hready, Takes]
    cases s.driveDone <;> simp
  | _ => simp [issue, autoDriveDistance, autoDrivePoint, autoDriveCoordinate, moveToLift,
      autoTurnToHeading, autoTurnToAngle, autoTurnLift, holdDrives, h, Takes]

end Step

section Run

variable [FloorRing R] [JavaMath R]

/-- An iteration of a motion goes on with it or completes it. -/
theorem Occupied.execute {s : DrivesState R} (h : Occupied s) (r : DrivesReading R) :
    Occupied (execute r s) ∨ (execute r s).currentDriveState = .standby := by
  obtain ⟨hengaged, -⟩ := h
  have hends : GoesOnOrEnds s.currentDriveState (runState r (sense r s)) := by
    unfold runState
    rw [sense_currentDriveState]
    cases hs : s.currentDriveState <;>
      simp only [hs, DriveState.isEngaged, Bool.false_eq_true] at hengaged ⊢
    case autoDriveDistance => exact hs ▸ driveDistance_ends r (sense r s)
    case autoDrivePoint => exact hs ▸ drivePoint_ends r (sense r s)
    case autoTurn => exact hs ▸ turn_ends (sense r s)
    case autoHold => exact hold_ends r (sense r s) hs
  unfold Occupied
  rw [execute_currentDriveState, execute_autoReady]
  rcases hends with ⟨hstate, hready⟩ | ⟨hstate, -⟩
  · exact .inl ⟨hstate ▸ hengaged, hready⟩
  · exact .inr hstate

/-- While its motion is not released a command keeps the drives, and others are refused. -/
theorem Occupied.step {s : DrivesState R} (h : Occupied s) (e : DrivesEvent R)
    (hr : ¬ Releases (moment drivesStep s e)) : Occupied (drivesStep s e).1 ∧
      ((∃ c, e = .command c) → RefusedUnchanged (moment drivesStep s e)) := by
  cases e with
  | execute r =>
    refine ⟨(h.execute r).resolve_right fun hs => hr (.inl ⟨⟨r, rfl⟩, h.1, hs⟩), ?_⟩
    rintro ⟨c, hc⟩
    cases hc
  | command c =>
    have hsame : drivesStep s (.command c) = (s, false) := issue_refused c h.busy
    refine ⟨hsame ▸ h, fun _ => ?_⟩
    simp only [RefusedUnchanged, moment_output, moment_post, moment_pre, hsame, and_self]
  | abortAuto => exact absurd (.inr (.inl rfl)) hr
  | stopDrives => exact absurd (.inr (.inr rfl)) hr
  | setStartingCoordinate angle x y =>
    refine ⟨h, ?_⟩
    rintro ⟨c, hc⟩
    cases hc

/-- The same over a stretch of a run without a release. -/
theorem Occupied.stretch {during t : List (DrivesMoment R)} :
    ∀ {s : DrivesState R} {events}, Occupied s → trace drivesStep s events = during ++ t →
      (∀ x ∈ during, ¬ Releases x) → ∀ x ∈ during, isAutoDone x.post = false ∧
        ((∃ c, x.input = .command c) → RefusedUnchanged x) := by
  induction during with
  | nil => simp
  | cons x xs ih =>
    intro s events hs ht hnone
    cases events with
    | nil => simp [trace] at ht
    | cons e es =>
      obtain ⟨rfl, htail⟩ := List.cons.inj ht
      obtain ⟨hnext, hrefused⟩ := hs.step e (hnone _ List.mem_cons_self)
      intro y hy
      rcases List.mem_cons.mp hy with rfl | hy
      · exact ⟨hnext.busy, hrefused⟩
      · exact ih hnext htail (fun z hz => hnone z (List.mem_cons_of_mem _ hz)) y hy

/-- Over every run, commands exclude each other exactly when every accepted hold and lift
turn finds `autoReady` down and every accepted travel no finished drive. -/
theorem one_command_at_a_time_iff (s : DrivesState R) (events : List (DrivesEvent R)) :
    OneAtATime (trace drivesStep s events) ↔
      ∀ m ∈ trace drivesStep s events, TakesDrives m := by
  constructor
  · intro hone m hm c hc hdone
    obtain ⟨h, t, ht⟩ := List.append_of_mem hm
    have heq := eq_moment_of_mem hm
    rw [hc] at heq
    have haccepted : Accepts m := by
      refine ⟨⟨c, hc⟩, ?_⟩
      rw [congrArg Moment.output heq]
      exact (issue_accepted c hdone).1
    obtain ⟨hbusy, -⟩ := hone h m [] t ht haccepted (by simp)
    rw [congrArg Moment.post heq] at hbusy
    exact (issue_busy_iff c hdone).mp hbusy
  · intro htakes h m during t ht ⟨⟨c, hc⟩, hanswer⟩ hnone
    obtain ⟨heq, js, hrest⟩ := trace_after ht
    rw [hc] at heq
    have hdone : isAutoDone m.pre = true := by
      by_contra hbusy
      rw [heq] at hanswer
      simp [moment, drivesStep, issue_refused c (by simpa using hbusy)] at hanswer
    have hbusy := (issue_busy_iff c hdone).mpr (htakes m (by simp [ht]) c hc hdone)
    have hoccupied : Occupied m.post := by
      rw [congrArg Moment.post heq]
      exact issue_occupies c hdone hbusy
    exact ⟨hoccupied.busy, hoccupied.stretch hrest.symm hnone⟩

/-- A lift turn from power-on, and a drive before its first iteration. -/
def liftTurnThenDrive (R : Type*) [Field R] : List (DrivesEvent R) :=
  [.command (.autoTurnLift 10.0 30.0), .command (.autoDriveDistance 0 24.0 40.0)]

/-- The drive is accepted, and the turn is lost. -/
theorem liftTurnThenDrive_both_accepted :
    ¬ ∀ events, OneAtATime (trace drivesStep ({} : DrivesState ℝ) events) := by
  intro hall
  obtain ⟨-, hduring⟩ := hall (liftTurnThenDrive ℝ) [] _ [_] [] rfl ⟨⟨_, rfl⟩, rfl⟩ (by
    simp [Releases, Completes])
  obtain ⟨-, hrefused⟩ := hduring _ (List.mem_singleton.mpr rfl)
  obtain ⟨hanswer, -⟩ := hrefused ⟨_, rfl⟩
  exact Bool.noConfusion (show true = false from hanswer)

end Run

end SparxRobot.Drives
