import SparxRobot.Drives.PublicMethods
import SparxRobot.Java.Angle
import SparxRobot.Machine.Register
import SparxRobot.Machine.Total

/-! Dead reckoning: what the iterations of a run add up to. The distance an iteration advances
the position by is the one it has sensed, before a motion puts another into the same field. -/
namespace SparxRobot.Drives
open Machine

section Readings

variable {R : Type*} [Field R] [LinearOrder R] [FloorRing R] [JavaMath R]

/-- The mean of the two wheel distances an iteration reads. -/
def DrivesCall.wheelsRead (c : DrivesCall R) : Option R :=
  c.reading.map DrivesReading.wheelMean

/-- The one that was read last, zero before the first reading. -/
def wheelMean (calls : List (DrivesCall R)) : R := (lastWrite DrivesCall.wheelsRead calls).getD 0

/-- What the gyro reads when the robot is placed. -/
def DrivesCall.placedAngle : DrivesCall R → Option R
  | .event (.setStartingCoordinate angle _ _) => some angle
  | _ => none

/-- The heading of a reading, from where the robot was placed last. -/
def headingRead (past : List (DrivesCall R)) (r : DrivesReading R) : R :=
  r.headingFrom ((lastWrite DrivesCall.placedAngle past).getD 0)

/-- The distance the moment advances the position by. -/
def advance (m : CallMoment R) : R :=
  match m.input.reading with
  | some r => (sense r m.pre).averageDistance
  | none => 0

theorem runState_distances (r : DrivesReading R) (s : DrivesState R) :
    (runState r s).rightCurrentDistance = s.rightCurrentDistance ∧
      (runState r s).leftCurrentDistance = s.leftCurrentDistance := by
  by_cases h : s.currentDriveState = .teleop
  · rw [runState_teleop r h, teleop_eq]
    exact ⟨rfl, rfl⟩
  · rw [runState_eq r h]
    exact ⟨rfl, rfl⟩

/-- An iteration ends with the distances it has read as the previous ones. -/
theorem execute_distances (r : DrivesReading R) (s : DrivesState R) :
    (execute r s).rightPreviousDistance = r.rightDistance ∧
      (execute r s).leftPreviousDistance = r.leftDistance := by
  obtain ⟨hright, hleft⟩ := runState_distances r (sense r s)
  have hexecute : (execute r s).rightCurrentDistance =
      (runState r (sense r s)).rightCurrentDistance ∧ (execute r s).leftCurrentDistance =
        (runState r (sense r s)).leftCurrentDistance := by
    rw [execute_eq]
    exact ⟨rfl, rfl⟩
  have hprevious : (execute r s).rightPreviousDistance = (execute r s).rightCurrentDistance ∧
      (execute r s).leftPreviousDistance = (execute r s).leftCurrentDistance := ⟨rfl, rfl⟩
  exact ⟨hprevious.1.trans (hexecute.1.trans hright), hprevious.2.trans (hexecute.2.trans hleft)⟩

/-- The previous distances are the ones that were read last. -/
theorem previousMean_register :
    Register callStep (previousMean (R := R)) fun m => m.input.wheelsRead := by
  intro s c
  simp only [moment_input, DrivesCall.wheelsRead]
  cases hr : c.reading with
  | some r =>
    obtain rfl := reading_eq_some hr
    obtain ⟨hright, hleft⟩ := execute_distances r s
    show previousMean (execute r s) = r.wheelMean
    rw [previousMean, hright, hleft, DrivesReading.wheelMean]
  | none =>
    rw [Option.map_none, Option.getD_none]
    by_cases hp : c.Places
    · obtain ⟨angle, x, y, rfl⟩ := hp
      rfl
    · have hkept := call_undisturbed hr hp s
      rw [previousMean, hkept.rightPreviousDistance, hkept.leftPreviousDistance, previousMean]

theorem previousMean_final (past : List (DrivesCall R)) :
    previousMean (final callStep {} past) = wheelMean past := by
  have hzero : previousMean ({} : DrivesState R) = 0 := by simp [previousMean]
  rw [wheelMean, previousMean_register.final, hzero]

omit [LinearOrder R] [FloorRing R] [JavaMath R] in
theorem placedAngle_eq_none {c : DrivesCall R} (hc : ¬ c.Places) : c.placedAngle = none := by
  cases c with
  | event e =>
    cases e with
    | setStartingCoordinate angle x y => exact absurd ⟨angle, x, y, rfl⟩ hc
    | _ => rfl
  | _ => rfl

/-- Placing the robot sets the zero of the gyro, and nothing else does. -/
theorem gyroZero_register :
    Register callStep (fun s : DrivesState R => s.gyroZero) fun m => m.input.placedAngle := by
  intro s c
  simp only [moment_input]
  by_cases hp : c.Places
  · obtain ⟨angle, x, y, rfl⟩ := hp
    rfl
  · rw [placedAngle_eq_none hp, Option.getD_none]
    cases hr : c.reading with
    | some r =>
      obtain rfl := reading_eq_some hr
      exact (execute_keeps r (s := s)).gyroZero
    | none => exact (call_undisturbed hr hp s).gyroZero

end Readings

section Position

/-- The position as a point of the plane, along the field first and then across. -/
def position (s : DrivesState ℝ) : ℂ := ⟨s.currentY, s.currentX⟩

/-- The way of a distance in a direction. -/
noncomputable def displacement (distance heading : ℝ) : ℂ :=
  ⟨distance * JavaMath.cos (Java.toRadians heading),
    distance * JavaMath.sin (Java.toRadians heading)⟩

/-- The straight line between the positions in two states. -/
noncomputable def straightLine (s t : DrivesState ℝ) : ℝ :=
  JavaMath.sqrt ((t.currentX - s.currentX) ^ 2 + (t.currentY - s.currentY) ^ 2)

theorem displacement_add (d d' heading : ℝ) :
    displacement (d + d') heading = displacement d heading + displacement d' heading :=
  Complex.ext (add_mul _ _ _) (add_mul _ _ _)

theorem displacement_zero (heading : ℝ) : displacement 0 heading = 0 :=
  Complex.ext (zero_mul _) (zero_mul _)

theorem straightLine_eq (s t : DrivesState ℝ) : straightLine s t = ‖position t - position s‖ := by
  rw [Complex.norm_eq_sqrt_sq_add_sq, add_comm]
  rfl

/-- The way the moment goes, where its iteration reads this heading. -/
noncomputable def way (heading : DrivesReading ℝ → ℝ) (m : CallMoment ℝ) : ℂ :=
  match m.input.reading with
  | some r => displacement (advance m) (heading r)
  | none => 0

theorem way_eq (heading : DrivesReading ℝ → ℝ) {m : CallMoment ℝ} {r : DrivesReading ℝ}
    (hr : m.input.reading = some r) : way heading m = displacement (advance m) (heading r) := by
  rw [way, hr]

theorem norm_way (heading : DrivesReading ℝ → ℝ) (m : CallMoment ℝ) :
    ‖way heading m‖ = |advance m| := by
  cases hr : m.input.reading with
  | some r => exact (congrArg norm (way_eq heading hr)).trans (Java.norm_polar _ _)
  | none => simp [way, advance, hr]

variable {s : DrivesState ℝ}

/-- One step goes its distance on the wheels. -/
theorem callStep_wheels (s : DrivesState ℝ) (c : DrivesCall ℝ) :
    previousMean (callStep s c).1 = previousMean s + advance (moment callStep s c) := by
  rw [previousMean_register s c]
  simp only [moment_input, DrivesCall.wheelsRead]
  cases hr : c.reading with
  | some r =>
    obtain rfl := reading_eq_some hr
    have hadvance : advance (moment callStep s (.event (.execute r))) =
        ((r.rightDistance - s.rightPreviousDistance) +
          (r.leftDistance - s.leftPreviousDistance)) / 2 := rfl
    rw [hadvance, Option.map_some, Option.getD_some, previousMean, DrivesReading.wheelMean]
    ring
  | none => simp [advance, hr]

/-- One step goes the same distance on the field, the way the robot heads. -/
theorem callStep_position {past : List (DrivesCall ℝ)} {c : DrivesCall ℝ} (hc : ¬ c.Places)
    (hs : s.gyroZero = (lastWrite DrivesCall.placedAngle past).getD 0) :
    position (callStep s c).1 = position s + way (headingRead past) (moment callStep s c) := by
  unfold way
  cases hr : c.reading with
  | some r =>
    obtain rfl := reading_eq_some hr
    have hkept := execute_keeps r (s := s)
    have hx := hkept.currentX.trans (sense_currentX r s)
    have hy := hkept.currentY.trans (sense_currentY r s)
    have hheading : (sense r s).currentAngle = headingRead past r := by
      rw [headingRead, ← hs]
      rfl
    rw [hheading, mul_comm] at hx hy
    exact Complex.ext hy hx
  | none =>
    have hkept := call_undisturbed hr hc s
    rw [moment_input, hr, add_zero]
    exact Complex.ext hkept.currentY hkept.currentX

end Position

/-- What the distances of a run come to, after any past: by the distances and headings its
iterations read. -/
structure LosesNoDistance (past calls : List (DrivesCall ℝ)) : Prop where
  adds_up : total callStep advance (final callStep {} past) calls =
    wheelMean (past ++ calls) - wheelMean past
  advances : ∀ m ∈ trace callStep (final callStep {} past) calls, ∀ r, m.input.reading = some r →
    position m.post = position m.pre + displacement (advance m) (headingRead past r)
  no_farther : straightLine (final callStep {} past) (final callStep {} (past ++ calls)) ≤
    total callStep (fun m => |advance m|) (final callStep {} past) calls
  straight : ∀ heading, (∀ c ∈ calls, ∀ r, c.reading = some r → headingRead past r = heading) →
    (final callStep {} (past ++ calls)).currentX - (final callStep {} past).currentX =
        total callStep advance (final callStep {} past) calls *
          JavaMath.sin (Java.toRadians heading) ∧
      (final callStep {} (past ++ calls)).currentY - (final callStep {} past).currentY =
        total callStep advance (final callStep {} past) calls *
          JavaMath.cos (Java.toRadians heading)

section Run

variable {past calls : List (DrivesCall ℝ)}

theorem gyroZero_final (past : List (DrivesCall ℝ)) :
    (final callStep ({} : DrivesState ℝ) past).gyroZero =
      (lastWrite DrivesCall.placedAngle past).getD 0 := gyroZero_register.final {} past

private theorem gyroZero_step {s : DrivesState ℝ} {c : DrivesCall ℝ}
    (hs : s.gyroZero = (lastWrite DrivesCall.placedAngle past).getD 0) (hc : ¬ c.Places) :
    (callStep s c).1.gyroZero = (lastWrite DrivesCall.placedAngle past).getD 0 := by
  have hkept : (callStep s c).1.gyroZero = c.placedAngle.getD s.gyroZero := gyroZero_register s c
  rw [hkept, placedAngle_eq_none hc, Option.getD_none, hs]

/-- Over a run the position moves by all the ways there were. -/
theorem position_final (hcalls : ∀ c ∈ calls, ¬ c.Places) :
    position (final callStep {} (past ++ calls)) = position (final callStep {} past) +
      total callStep (way (headingRead past)) (final callStep {} past) calls := by
  rw [final_append]
  exact final_eq_add_total (fun _ _ hs hc => gyroZero_step hs hc)
    (fun _ _ hs hc => callStep_position hc hs) (gyroZero_final past)
    fun m hm => hcalls m.input (input_mem_of_mem hm)

theorem straightLine_le (hcalls : ∀ c ∈ calls, ¬ c.Places) :
    straightLine (final callStep {} past) (final callStep {} (past ++ calls)) ≤
      total callStep (fun m => |advance m|) (final callStep {} past) calls := by
  rw [straightLine_eq, position_final hcalls, add_sub_cancel_left]
  refine (norm_total_le _ _ calls).trans_eq ?_
  apply total_congr
  intro m _
  exact norm_way _ m

/-- Heading in one direction the robot moves along it by the sum of the distances. -/
theorem position_of_heading (hcalls : ∀ c ∈ calls, ¬ c.Places) {heading : ℝ}
    (hheads : ∀ c ∈ calls, ∀ r, c.reading = some r → headingRead past r = heading) :
    position (final callStep {} (past ++ calls)) - position (final callStep {} past) =
      displacement (total callStep advance (final callStep {} past) calls) heading := by
  let along : ℝ →+ ℂ :=
    ⟨⟨fun d => displacement d heading, displacement_zero heading⟩,
      fun d d' => displacement_add d d' heading⟩
  have halong : along (total callStep advance (final callStep {} past) calls) =
      total callStep (fun m => displacement (advance m) heading) (final callStep {} past) calls :=
    map_total along _ calls
  rw [position_final hcalls, add_sub_cancel_left]
  refine Eq.trans ?_ halong.symm
  apply total_congr
  intro m hm
  cases hr : m.input.reading with
  | some r => rw [way_eq _ hr, hheads m.input (input_mem_of_mem hm) r hr]
  | none => simp [way, advance, hr, displacement_zero]

/-- Over every run of iterations and public methods that does not place the robot, from any
state there is, dead reckoning loses no distance. -/
theorem loses_no_distance (past calls : List (DrivesCall ℝ)) (hcalls : ∀ c ∈ calls, ¬ c.Places) :
    LosesNoDistance past calls where
  adds_up := by
    have hsum : previousMean (final callStep (final callStep {} past) calls) =
        previousMean (final callStep {} past) + total callStep advance _ calls :=
      final_eq_add_total (P := fun _ => True) (fun _ _ _ (_ : True) => trivial)
        (fun s c _ _ => callStep_wheels s c) trivial fun _ _ => trivial
    rw [← previousMean_final, ← previousMean_final, final_append, hsum, add_sub_cancel_left]
  advances := by
    intro m hm r hr
    have hkeeps : ∀ (s : DrivesState ℝ) (c : DrivesCall ℝ),
        s.gyroZero = (lastWrite DrivesCall.placedAngle past).getD 0 → ¬ c.Places →
          (callStep s c).1.gyroZero = (lastWrite DrivesCall.placedAngle past).getD 0 :=
      fun _ _ hs hc => gyroZero_step hs hc
    obtain ⟨hzero, -⟩ := invariant_of_step hkeeps (gyroZero_final past)
      fun m hm => hcalls m.input (input_mem_of_mem hm)
    have hmoves := callStep_position (hcalls m.input (input_mem_of_mem hm)) (hzero m hm).1
    rw [← eq_moment_of_mem hm, way_eq _ hr] at hmoves
    rw [eq_moment_of_mem hm]
    exact hmoves
  no_farther := straightLine_le hcalls
  straight := by
    intro heading hheads
    have hmoves := position_of_heading hcalls hheads
    exact ⟨congrArg Complex.im hmoves, congrArg Complex.re hmoves⟩

/-- A drive and its first iteration. -/
theorem firstDrive_lossless : LosesNoDistance [] [.event (.command (.autoDriveDistance 0 24.0 40.0)),
    .event (.execute { rightDistance := 1.0, leftDistance := 1.5 })] := by
  apply loses_no_distance []
  simp [DrivesCall.Places]

end Run

end SparxRobot.Drives
