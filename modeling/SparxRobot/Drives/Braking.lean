import SparxRobot.Drives.DistanceDrive

/-! How drives by a distance slow down. The signed distance meets an unsigned braking distance
and only a speed above its cap is brought down, so that a backward drive runs past its end at
the speed it started with. -/
namespace SparxRobot.Drives
open Machine

variable {R : Type*} [Field R] [LinearOrder R]

section Braking

/-- A speed goes the way of a distance, or is zero. -/
def PointsAlong (distance speed : R) : Prop :=
  speed = 0 ∨ (0 < speed ∧ 0 < distance) ∨ (speed < 0 ∧ distance < 0)

/-- An iteration of a drive goes on the right way and no faster than asked for, and does not
go on once the distance is travelled. -/
def SlowsAndStops (start : DrivesState R) (distance speed : R) (m : DrivesMoment R) : Prop :=
  m.pre.currentDriveState = .autoDriveDistance →
    (m.post.currentDriveState = .autoDriveDistance →
      PointsAlong distance m.post.wantedSpeed ∧ |m.post.wantedSpeed| ≤ speed) ∧
    (|distance| ≤ travelled start m.post → m.post.currentDriveState = .standby)

/-- An iteration finds the drive at its end, or finds the distance not travelled yet and what
the wheels need for braking no more than forty beyond it. A backward drive that is to keep its
speed has that to spare as well. -/
def BrakesInTime (distance speed : R) (m : DrivesMoment R) : Prop :=
  ∀ r, m.input = .execute r → m.pre.currentDriveState = .autoDriveDistance →
    Arrives distance r ∨ (r.total < |distance| ∧
      r.braking + r.total ≤ 40.0 + distance + if distance < 0 then speed else 0)

/-- What a drive that goes on has been asked for, its speed capped at the most. -/
def Capped (distance speed : R) (s : DrivesState R) : Prop :=
  s.currentDriveState = .autoDriveDistance → s.wantedDistance = distance ∧
    if distance < 0 then s.wantedSpeed = -speed else 0 ≤ s.wantedSpeed ∧ s.wantedSpeed ≤ speed

variable [IsStrictOrderedRing R] {distance speed : R}

/-- A distance that is not travelled yet is not zero. -/
theorem ne_zero_of_total_lt {r : DrivesReading R} (hfar : r.total < |distance|) : distance ≠ 0 :=
  abs_pos.mp ((meanDistance_nonneg _ _).trans_lt hfar)

/-- A cap lets a speed in range stay in range exactly when it is not beyond the range itself. -/
theorem cap_inRange_iff {wanted cap : R} (hspeed : 0 < speed) (hdistance : distance ≠ 0)
    (hwanted : if distance < 0 then wanted = -speed else 0 ≤ wanted ∧ wanted ≤ speed) :
    PointsAlong distance (min wanted cap) ∧ |min wanted cap| ≤ speed ↔
      (if distance < 0 then -speed else 0) ≤ cap := by
  by_cases hneg : distance < 0
  · rw [if_pos hneg] at hwanted
    rw [if_pos hneg, hwanted]
    constructor
    · rintro ⟨-, hbound⟩
      exact (abs_le.mp hbound).1.trans (min_le_right _ _)
    · intro hcap
      rw [min_eq_left hcap, abs_neg, abs_of_pos hspeed]
      exact ⟨.inr (.inr ⟨by linarith, hneg⟩), le_rfl⟩
  · have hpos : 0 < distance := lt_of_le_of_ne (not_lt.mp hneg) hdistance.symm
    rw [if_neg hneg] at hwanted
    rw [if_neg hneg]
    constructor
    · rintro ⟨hzero | ⟨hforward, -⟩ | ⟨-, hback⟩, -⟩
      · exact hzero.ge.trans (min_le_right _ _)
      · exact hforward.le.trans (min_le_right _ _)
      · exact absurd hback hneg
    · intro hcap
      have hmin : 0 ≤ min wanted cap := le_min hwanted.1 hcap
      rw [abs_of_nonneg hmin]
      refine ⟨?_, (min_le_left _ _).trans hwanted.2⟩
      rcases hmin.eq_or_lt with hzero | hforward
      · exact .inl hzero.symm
      · exact .inr (.inl ⟨hforward, hpos⟩)

private theorem forty_eq : (40.0 : R) = 40 := by norm_num

private theorem cap_le_iff (r : DrivesReading R) :
    (if distance < 0 then -speed else 0) ≤ distance - r.braking - r.total + 40 ↔
      r.braking + r.total ≤ 40.0 + distance + if distance < 0 then speed else 0 := by
  rw [forty_eq]
  split <;> constructor <;> intro h <;> linarith

variable [FloorRing R] [JavaMath R] {start s : DrivesState R}

omit [IsStrictOrderedRing R] in
theorem brakesInTime_iff {r : DrivesReading R} (hstate : s.currentDriveState = .autoDriveDistance) :
    BrakesInTime distance speed (moment drivesStep s (.execute r)) ↔
      Arrives distance r ∨ (r.total < |distance| ∧
        r.braking + r.total ≤ 40.0 + distance + if distance < 0 then speed else 0) := by
  constructor
  · intro h
    exact h r rfl hstate
  · rintro h r' hr' -
    obtain rfl : r = r' := by simpa using hr'
    exact h

theorem slowsAndStops_iff (hspeed : 0 < speed) (hzero : start.rightCurrentDistance = 0 ∧
    start.leftCurrentDistance = 0) (hcapped : Capped distance speed s) (r : DrivesReading R) :
    SlowsAndStops start distance speed (moment drivesStep s (.execute r)) ↔
      BrakesInTime distance speed (moment drivesStep s (.execute r)) := by
  by_cases hstate : s.currentDriveState = .autoDriveDistance
  · obtain ⟨hends, -, hwanted⟩ := execute_distance (r := r) hstate
    obtain ⟨hright, hleft⟩ := execute_totals (r := r) hstate
    obtain ⟨hdistance, hspeeds⟩ := hcapped hstate
    have htravelled : travelled start (execute r s) = r.total := by
      rw [travelled, hright, hleft, hzero.1, hzero.2, sub_zero, sub_zero]
      rfl
    rw [brakesInTime_iff hstate, SlowsAndStops, moment_execute_post, htravelled, hends, hwanted,
      hdistance]
    by_cases h : Arrives distance r
    · simp [h]
    · rw [if_neg h, or_iff_right h, ← cap_le_iff]
      by_cases hfar : r.total < |distance|
      · have hne := ne_zero_of_total_lt hfar
        rw [← cap_inRange_iff hspeed hne hspeeds]
        constructor
        · intro hfine
          exact ⟨hfar, (hfine hstate).1 rfl⟩
        · intro hfine _
          exact ⟨fun _ => hfine.2, fun hreached => absurd hfar hreached.not_gt⟩
      · constructor
        · intro hfine
          have hstops := (hfine hstate).2 (not_lt.mp hfar)
          exact DriveState.noConfusion hstops
        · intro hfine
          exact absurd hfine.1 hfar
  · constructor
    · intro _ r' _ hdriving
      exact absurd hdriving hstate
    · intro _ hdriving
      exact absurd hdriving hstate

/-- An iteration that brakes in time leaves the speed capped. -/
theorem Capped.execute (hcapped : Capped distance speed s)
    (r : DrivesReading R)
    (hbrakes : BrakesInTime distance speed (moment drivesStep s (.execute r))) :
    Capped distance speed (execute r s) := by
  intro hgoes
  have hstate : s.currentDriveState = .autoDriveDistance := by
    by_contra hother
    exact execute_starts_none rfl r hother hgoes
  obtain ⟨hends, -, hwanted⟩ := execute_distance (r := r) hstate
  obtain ⟨hdistance, hspeeds⟩ := hcapped hstate
  have h : ¬ Arrives distance r := by
    intro h
    rw [hdistance, if_pos h] at hends
    exact DriveState.noConfusion (hends.symm.trans hgoes)
  have hcap := (cap_le_iff r).mpr ((hbrakes r rfl hstate).resolve_left h).2
  rw [(execute_keeps r (s := s)).wantedDistance, hwanted]
  refine ⟨hdistance, ?_⟩
  change if _ then min _ (s.wantedDistance - _ - _ + 40) = _ else _
  rw [hdistance]
  split <;> rename_i hneg
  · rw [if_pos hneg] at hspeeds hcap
    rw [hspeeds, min_eq_left hcap]
  · rw [if_neg hneg] at hspeeds hcap
    exact ⟨le_min hspeeds.1 hcap, (min_le_left _ _).trans hspeeds.2⟩

end Braking

section Mirrored

/-- Two drives on the same readings go on at opposite speeds, or end together. -/
def Mirrored (m m' : DrivesMoment R) : Prop :=
  m.pre.currentDriveState = .autoDriveDistance → m'.pre.currentDriveState = .autoDriveDistance →
    m'.post.currentDriveState = m.post.currentDriveState ∧
      (m.post.currentDriveState = .autoDriveDistance → m'.post.wantedSpeed = -m.post.wantedSpeed)

/-- Drives there and back find their ends together, or find the distance not travelled yet and
neither of them brought down from the speed asked for. -/
def MirrorsInTime (distance speed : R) (m m' : DrivesMoment R) : Prop :=
  ∀ r, m.input = .execute r → m.pre.currentDriveState = .autoDriveDistance →
    m'.pre.currentDriveState = .autoDriveDistance →
    (Arrives distance r ↔ Arrives (-distance) r) ∧
      (Arrives distance r ∨
        (r.total < |distance| ∧ r.braking + r.total ≤ 40.0 - |(|distance| - speed)|))

/-- The speed a drive starts with. -/
def askedSpeed (distance speed : R) : R := if distance < 0 then -speed else speed

/-- A drive and the one back both go on as they were asked to, or neither goes on. -/
def Abreast (distance speed : R) (s s' : DrivesState R) : Prop :=
  (s.currentDriveState = .autoDriveDistance ∧ s'.currentDriveState = .autoDriveDistance ∧
    s.wantedDistance = distance ∧ s.wantedSpeed = askedSpeed distance speed ∧
    s'.wantedDistance = -distance ∧ s'.wantedSpeed = askedSpeed (-distance) speed) ∨
  (s.currentDriveState ≠ .autoDriveDistance ∧ s'.currentDriveState ≠ .autoDriveDistance)

variable {distance speed : R}

theorem Capped.of_asked {s : DrivesState R} (hspeed : 0 ≤ speed)
    (hdistance : s.wantedDistance = distance)
    (hwanted : s.wantedSpeed = askedSpeed distance speed) : Capped distance speed s := by
  intro _
  rw [hwanted, askedSpeed]
  refine ⟨hdistance, ?_⟩
  split
  · rfl
  · exact ⟨hspeed, le_rfl⟩

variable [IsStrictOrderedRing R]

private theorem opposite_of_pos (spent : R) :
    min (-speed) (-distance - spent + 40) = -min speed (distance - spent + 40) ↔
      spent ≤ 40 - |distance - speed| := by
  constructor
  · intro hopposite
    have hforward := min_le_left speed (distance - spent + 40)
    have hback := min_le_left (-speed) (-distance - spent + 40)
    have hcap : min speed (distance - spent + 40) = speed := by linarith
    have hcap' : min (-speed) (-distance - spent + 40) = -speed := by linarith
    rw [min_eq_left_iff] at hcap hcap'
    rw [le_sub_comm, abs_le]
    constructor <;> linarith
  · intro hspent
    rw [le_sub_comm, abs_le] at hspent
    rw [min_eq_left (by linarith), min_eq_left (by linarith)]

/-- The caps of a drive and of the one back leave the speeds opposite exactly when they leave
them as they are. -/
theorem opposite_iff (hdistance : distance ≠ 0) (spent : R) :
    min (askedSpeed (-distance) speed) (-distance - spent + 40) =
        -min (askedSpeed distance speed) (distance - spent + 40) ↔
      spent ≤ 40 - |(|distance| - speed)| := by
  rcases hdistance.lt_or_gt with hneg | hpos
  · rw [askedSpeed, if_neg (by linarith), askedSpeed, if_pos hneg, abs_of_neg hneg,
      ← opposite_of_pos, neg_neg, eq_neg_iff_add_eq_zero, eq_neg_iff_add_eq_zero, add_comm]
  · rw [askedSpeed, if_pos (by linarith), askedSpeed, if_neg hpos.not_gt, abs_of_pos hpos,
      opposite_of_pos]

theorem askedSpeed_le_cap (hdistance : distance ≠ 0) {spent : R}
    (hspent : spent ≤ 40 - |(|distance| - speed)|) :
    askedSpeed distance speed ≤ distance - spent + 40 := by
  rw [le_sub_comm, abs_le] at hspent
  rcases hdistance.lt_or_gt with hneg | hpos
  · rw [abs_of_neg hneg] at hspent
    rw [askedSpeed, if_pos hneg]
    linarith
  · rw [abs_of_pos hpos] at hspent
    rw [askedSpeed, if_neg hpos.not_gt]
    linarith

variable [FloorRing R] [JavaMath R] {start s s' : DrivesState R}

/-- An iteration of the two drives mirrors one in the other, as far as they end together and
their caps leave the speeds opposite. -/
theorem mirrored_of_asked {r : DrivesReading R} (hstate : s.currentDriveState = .autoDriveDistance)
    (hstate' : s'.currentDriveState = .autoDriveDistance) (hdistance : s.wantedDistance = distance)
    (hwanted : s.wantedSpeed = askedSpeed distance speed)
    (hdistance' : s'.wantedDistance = -distance)
    (hwanted' : s'.wantedSpeed = askedSpeed (-distance) speed) :
    Mirrored (moment drivesStep s (.execute r)) (moment drivesStep s' (.execute r)) ↔
      (Arrives distance r ↔ Arrives (-distance) r) ∧ (Arrives distance r ∨
        min (askedSpeed (-distance) speed) (-distance - (r.braking + r.total) + 40) =
          -min (askedSpeed distance speed) (distance - (r.braking + r.total) + 40)) := by
  obtain ⟨hends, -, hspeeds⟩ := execute_distance (r := r) hstate
  obtain ⟨hends', -, hspeeds'⟩ := execute_distance (r := r) hstate'
  rw [Mirrored, moment_execute_post, moment_execute_post, hends, hends', hspeeds, hspeeds',
    hdistance, hdistance', hwanted, hwanted', moment_pre, moment_pre, forall_prop_of_true hstate,
    forall_prop_of_true hstate', sub_sub, sub_sub]
  by_cases h : Arrives distance r <;> by_cases h' : Arrives (-distance) r <;> simp [h, h']

omit [IsStrictOrderedRing R] in
theorem mirrorsInTime_iff {r : DrivesReading R} (hstate : s.currentDriveState = .autoDriveDistance)
    (hstate' : s'.currentDriveState = .autoDriveDistance) :
    MirrorsInTime distance speed (moment drivesStep s (.execute r))
        (moment drivesStep s' (.execute r)) ↔
      (Arrives distance r ↔ Arrives (-distance) r) ∧ (Arrives distance r ∨
        (r.total < |distance| ∧ r.braking + r.total ≤ 40.0 - |(|distance| - speed)|)) := by
  constructor
  · intro h
    exact h r rfl hstate hstate'
  · rintro h r' hr' - -
    obtain rfl : r = r' := by simpa using hr'
    exact h

theorem mirrored_iff (hspeed : 0 < speed) (hzero : start.rightCurrentDistance = 0 ∧
    start.leftCurrentDistance = 0) (habreast : Abreast distance speed s s') (r : DrivesReading R) :
    SlowsAndStops start distance speed (moment drivesStep s (.execute r)) ∧
        Mirrored (moment drivesStep s (.execute r)) (moment drivesStep s' (.execute r)) ↔
      MirrorsInTime distance speed (moment drivesStep s (.execute r))
        (moment drivesStep s' (.execute r)) := by
  rcases habreast with ⟨hstate, hstate', hdistance, hwanted, hdistance', hwanted'⟩ | ⟨hother, -⟩
  · have hcapped : Capped distance speed s := .of_asked hspeed.le hdistance hwanted
    rw [slowsAndStops_iff hspeed hzero hcapped, brakesInTime_iff hstate,
      mirrored_of_asked hstate hstate' hdistance hwanted hdistance' hwanted',
      mirrorsInTime_iff hstate hstate']
    by_cases h : Arrives distance r
    · simp [h]
    · by_cases hfar : r.total < |distance|
      · have hne := ne_zero_of_total_lt hfar
        rw [opposite_iff hne, or_iff_right h, or_iff_right h, or_iff_right h, and_iff_right hfar,
          and_iff_right hfar, forty_eq]
        constructor
        · exact And.right
        · rintro ⟨htogether, hspent⟩
          refine ⟨?_, htogether, hspent⟩
          have hcap := askedSpeed_le_cap hne hspent
          rw [← forty_eq, ← cap_le_iff, sub_sub]
          refine le_trans ?_ hcap
          rw [askedSpeed]
          split <;> linarith
      · simp [h, hfar]
  · constructor
    · intro _ r' _ hdriving
      exact absurd hdriving hother
    · intro _
      exact ⟨fun hdriving => absurd hdriving hother, fun hdriving => absurd hdriving hother⟩

/-- Drives abreast that mirror in time stay abreast. -/
theorem Abreast.execute (habreast : Abreast distance speed s s') {r : DrivesReading R}
    (hmirrors : MirrorsInTime distance speed (moment drivesStep s (.execute r))
      (moment drivesStep s' (.execute r))) :
    Abreast distance speed (execute r s) (execute r s') := by
  rcases habreast with ⟨hstate, hstate', hdistance, hwanted, hdistance', hwanted'⟩ |
    ⟨hother, hother'⟩
  · obtain ⟨hends, -, hspeeds⟩ := execute_distance (r := r) hstate
    obtain ⟨hends', -, hspeeds'⟩ := execute_distance (r := r) hstate'
    obtain ⟨htogether, hgoes⟩ := (mirrorsInTime_iff hstate hstate').mp hmirrors
    rw [hdistance] at hends
    rw [hdistance'] at hends'
    by_cases h : Arrives distance r
    · rw [if_pos h] at hends
      rw [if_pos (htogether.mp h)] at hends'
      exact .inr ⟨by simp [hends], by simp [hends']⟩
    · rw [if_neg h] at hends
      rw [if_neg (mt htogether.mpr h)] at hends'
      obtain ⟨hfar, hspent⟩ := hgoes.resolve_left h
      have hne := ne_zero_of_total_lt hfar
      rw [forty_eq] at hspent
      have hcap := askedSpeed_le_cap hne hspent
      have hspent' : r.braking + r.total ≤ 40 - |(|-distance| - speed)| := by rwa [abs_neg]
      have hcap' := askedSpeed_le_cap (neg_ne_zero.mpr hne) hspent'
      rw [hdistance, hwanted, sub_sub, min_eq_left hcap] at hspeeds
      rw [hdistance', hwanted', sub_sub, min_eq_left hcap'] at hspeeds'
      exact .inl ⟨hends, hends', (execute_keeps r (s := s)).wantedDistance.trans hdistance, hspeeds,
        (execute_keeps r (s := s')).wantedDistance.trans hdistance', hspeeds'⟩
  · exact .inr ⟨execute_starts_none rfl r hother, execute_starts_none rfl r hother'⟩

omit [IsStrictOrderedRing R] [FloorRing R] [JavaMath R] in
theorem autoDriveDistance_of_done (angle distance speed : R) (hdone : isAutoDone s = true) :
    (autoDriveDistance angle distance speed s).1.currentDriveState = .autoDriveDistance ∧
      (autoDriveDistance angle distance speed s).1.wantedDistance = distance ∧
      (autoDriveDistance angle distance speed s).1.wantedSpeed = askedSpeed distance speed := by
  simp [autoDriveDistance, hdone, askedSpeed]

/-- The iterations of a drive of a distance from where the totals are zero. -/
def driveOf (angle distance speed : R) (s : DrivesState R) (rs : List (DrivesReading R)) :
    List (DrivesMoment R) :=
  iterations (autoDriveDistance angle distance speed s).1 rs

/-- A drive slows and stops exactly when every iteration finds it braking in time, and does so
and has the drive back mirror it exactly when every iteration finds them mirrored in time. -/
theorem distance_drive_stops_iff (hdone : isAutoDone s = true) (hzero : s.rightCurrentDistance = 0 ∧
    s.leftCurrentDistance = 0) (angle distance : R) (hspeed : 0 < speed)
    (rs : List (DrivesReading R)) :
    ((∀ m ∈ driveOf angle distance speed s rs, SlowsAndStops s distance speed m) ↔
        ∀ m ∈ driveOf angle distance speed s rs, BrakesInTime distance speed m) ∧
      ((∀ m ∈ driveOf angle distance speed s rs, SlowsAndStops s distance speed m) ∧
          List.Forall₂ Mirrored (driveOf angle distance speed s rs)
            (driveOf angle (-distance) speed s rs) ↔
        List.Forall₂ (MirrorsInTime distance speed) (driveOf angle distance speed s rs)
          (driveOf angle (-distance) speed s rs)) := by
  obtain ⟨hstate, hdistance, hwanted⟩ := autoDriveDistance_of_done angle distance speed hdone
  obtain ⟨hstate', hdistance', hwanted'⟩ := autoDriveDistance_of_done angle (-distance) speed hdone
  have hexecutes : ∀ e ∈ rs.map DrivesEvent.execute, ∃ r : DrivesReading R, e = .execute r := by
    intro e he
    obtain ⟨r, -, rfl⟩ := List.mem_map.mp he
    exact ⟨r, rfl⟩
  constructor
  · apply forall_trace_iff (P := Capped distance speed) ?_ ?_
      (Capped.of_asked hspeed.le hdistance hwanted) hexecutes
    · rintro t _ ⟨r, rfl⟩ ht
      exact slowsAndStops_iff hspeed hzero ht r
    · rintro t _ ⟨r, rfl⟩ ht hbrakes
      exact ht.execute r hbrakes
  · rw [← List.forall₂_and_left]
    have hsame : List.Forall₂ (fun e e' : DrivesEvent R => ∃ r, e = .execute r ∧ e' = .execute r)
        (rs.map .execute) (rs.map .execute) := by
      refine List.forall₂_same.mpr fun e he => ?_
      obtain ⟨r, hr⟩ := hexecutes e he
      exact ⟨r, hr, hr⟩
    apply forall₂_trace_iff (J := Abreast distance speed) ?_ ?_
      (.inl ⟨hstate, hstate', hdistance, hwanted, hdistance', hwanted'⟩) hsame
    · rintro t t' _ _ ht ⟨r, rfl, rfl⟩
      exact mirrored_iff hspeed hzero ht r
    · rintro t t' _ _ ht ⟨r, rfl, rfl⟩ hmirrors
      exact ht.execute hmirrors

/-- Two feet there and back from power-on, read at the start and past the end. -/
theorem twoFeet_mirrored :
    (∀ m ∈ driveOf (0 : ℝ) 24 30 {} [{}, { rightDistance := 25, leftDistance := 25 }],
        SlowsAndStops {} 24 30 m) ∧
      List.Forall₂ Mirrored
        (driveOf (0 : ℝ) 24 30 {} [{}, { rightDistance := 25, leftDistance := 25 }])
        (driveOf (0 : ℝ) (-24) 30 {} [{}, { rightDistance := 25, leftDistance := 25 }]) := by
  refine (distance_drive_stops_iff (s := {}) rfl ⟨rfl, rfl⟩ 0 24 (by norm_num) _).2.mpr
    (.cons ?_ (.cons ?_ .nil))
  · rintro r hr - -
    obtain rfl : {} = r := by simpa using hr
    norm_num [Arrives, DrivesReading.braking, DrivesReading.total, meanDistance, abs_le]
  · rintro r hr - -
    obtain rfl : { rightDistance := 25, leftDistance := 25 } = r := by simpa using hr
    norm_num [Arrives, DrivesReading.braking, DrivesReading.total, meanDistance, abs_le]

/-- Four inches past the end of a drive two feet back, the wheels still turning fast. -/
theorem pastTheEnd_goes_on : ¬ ∀ s : DrivesState ℝ, Reachable s → isAutoDone s = true →
    s.rightCurrentDistance = 0 ∧ s.leftCurrentDistance = 0 → ∀ angle distance speed, 0 < speed →
      ∀ rs, (∀ m ∈ driveOf angle distance speed s rs, SlowsAndStops s distance speed m) ∧
        List.Forall₂ Mirrored (driveOf angle distance speed s rs)
          (driveOf angle (-distance) speed s rs) := by
  intro hall
  let r : DrivesReading ℝ :=
    { rightSpeed := -30, leftSpeed := -30, rightDistance := -28, leftDistance := -28 }
  obtain ⟨hfine, -⟩ := hall {} ⟨[], rfl⟩ rfl ⟨rfl, rfl⟩ 0 (-24) 30 (by norm_num) [r]
  obtain ⟨hstate, hdistance, -⟩ :=
    autoDriveDistance_of_done (s := ({} : DrivesState ℝ)) 0 (-24) 30 rfl
  obtain ⟨-, hstops⟩ := hfine _ List.mem_cons_self hstate
  obtain ⟨hends, -, -⟩ := execute_distance (r := r) hstate
  have hgoes : ¬ Arrives (-24) r := by
    norm_num [r, Arrives, DrivesReading.braking, DrivesReading.total, meanDistance, abs_le]
  rw [hdistance, if_neg hgoes] at hends
  obtain ⟨hright, hleft⟩ := execute_totals (r := r) hstate
  have hpast : |(-24 : ℝ)| ≤ travelled {} (execute r (autoDriveDistance 0 (-24) 30 {}).1) := by
    rw [travelled, hright, hleft]
    norm_num [r, meanDistance]
  exact DriveState.noConfusion (hends.symm.trans (hstops hpast))

end Mirrored

end SparxRobot.Drives
