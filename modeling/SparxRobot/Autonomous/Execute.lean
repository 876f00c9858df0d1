import SparxRobot.Machine.Run
import SparxRobot.Station.Mode
import SparxRobot.Autonomous.Script

/-! One iteration of the autonomous subsystem, branch for branch as the source runs it.
Clock readings and the answers of the drives are inputs; the calls an iteration makes
on the other subsystems are outputs. Logging is left out. Java's `int` and `long` are
integers here: no sum of clock readings and delays of a match leaves `long`, and the
one `int` that can wrap, `moveToStep - 1`, is incremented back before it is read. -/
namespace SparxRobot.Autonomous
open Machine

/-- The fields of `Autonomous`. A `currentAuto` that was never read is a script without
rows: both raise at the first fetch, before anything else looks at them. -/
structure AutoState where
  currentAuto : Script := []
  currStep : ℤ := 0
  currCommand : Command := .ofCode 0
  critStep : ℤ := 0
  incStep : Bool := true
  waitTime : ℤ := 0
  critTime : ℤ := 0
  autoStartTime : ℤ := 0
  fromFile : Bool := true
  lastRead : ℤ := 0
  firstRun : Bool := true
  runAuto : Bool := false
  autoRun : Bool := false
  backgroundWaitTime : ℤ := 0
  moveToStep : ℤ := 0
  deriving DecidableEq, Repr

/-- What the world answers during one iteration. Every `System.currentTimeMillis()` of
the source has a reading of its own; `autoDone` and `stopped` answer
`drives.isAutoDone()` and `drives.stopDrives()`; `selected` is the script named at the
`Set Auto HERE` line. -/
structure Reading where
  mode : Mode := .autoEnabled
  selected : Script := []
  checkNow : ℤ := 0
  readNow : ℤ := 0
  startNow : ℤ := 0
  critNow : ℤ := 0
  backgroundNow : ℤ := 0
  commandNow : ℤ := 0
  autoDone : Bool := false
  stopped : Bool := false
  deriving Repr

/-- Calls on the other subsystems, and the one shared field autonomous writes. -/
inductive Call where
  | autoDrivePoint (distance speed : ℤ)
  | autoTurnToHeading (angle speed : ℤ)
  | autoTurnToAngle (angle speed : ℤ)
  | autoDriveCoordinate (x y speed : ℤ)
  | moveToLift (speed : ℤ)
  | setStartingCoordinate (x y : ℤ)
  | stopDrives
  | isAutoDone
  | abortAuto
  | autoChanger (selector subSelector : ℤ)
  | shooterSystemState (isOn speeds vision shroudPos : ℤ)
  | shooterSystemFire (fire : ℤ)
  | shooterSetTurret (turretAngle : ℤ)
  | setTargetType (target : Target)
  deriving DecidableEq, Repr

/-- What an iteration shows: whether the body of `runAuto` ran, whether the critical
time fired, the row it fetched, the case it executed, its calls, and whether it ended
in an exception. -/
structure Tick where
  ran : Bool := false
  critFired : Bool := false
  fetched : Option ℤ := none
  executed : Option Command := none
  calls : List Call := []
  raised : Bool := false
  deriving DecidableEq, Repr

/-- The end of a case: the fields it left, its calls, and whether it raised. -/
structure Outcome where
  state : AutoState
  calls : List Call
  raised : Bool

def abortCommands : List Call :=
  [.abortAuto, .shooterSystemFire 0, .shooterSystemState 0 1450 1 0]

/-- The guard of the critical jump. -/
def critFires (r : Reading) (s : AutoState) : Bool :=
  decide (r.critNow ≥ s.critTime) && decide (s.currStep < s.critStep) && decide (s.critTime > 0)

def checkCrit (r : Reading) (s : AutoState) : AutoState :=
  if critFires r s then
    { s with incStep := true, currStep := s.critStep - 1, critTime := 0 }
  else s

/-- A background timer is set and its time has passed. -/
def backgroundExpires (r : Reading) (s : AutoState) : Bool :=
  decide (s.backgroundWaitTime ≠ 0) && decide (s.backgroundWaitTime < r.backgroundNow)

def checkBackground (r : Reading) (s : AutoState) : AutoState :=
  if backgroundExpires r s then
    if s.moveToStep ≠ 0 then
      { s with backgroundWaitTime := 0, currStep := s.moveToStep - 1, incStep := true }
    else { s with backgroundWaitTime := 0, currCommand := .autoEnd }
  else s

/-- The step fetch. An index outside the script raises after the increment and before
`incStep` is cleared. -/
def fetchStep (s : AutoState) : Except AutoState AutoState :=
  if s.incStep then
    let s := { s with currStep := s.currStep + 1 }
    match s.currentAuto.entry s.currStep 0 with
    | none => .error s
    | some code => .ok { s with currCommand := .ofCode code, incStep := false }
  else .ok s

/-- The checks for an invalid step and for a failed read, made after the fetch. -/
def guardStep (s : AutoState) : Except AutoState AutoState :=
  let s := if s.currStep < 0 ∨ s.currStep ≥ s.currentAuto.length then
    { s with currCommand := .autoEnd } else s
  match s.currentAuto.entry 0 0 with
  | none => .error s
  | some code => .ok (if code < 0 then { s with currCommand := .autoEnd } else s)

/-- The part of `DRIVES_LIFT` that follows its delay. -/
def liftMove (s : AutoState) : Outcome :=
  match s.currentAuto.entry s.currStep 1 with
  | some speed => ⟨{ s with currCommand := .drivesDone }, [.moveToLift speed], false⟩
  | none => ⟨s, [], true⟩

/-- The switch of `runAuto`. Row entries are read in the order of the source. -/
def runCase (r : Reading) (s : AutoState) : Outcome :=
  let arg := s.currentAuto.entry s.currStep
  match s.currCommand with
  | .drivesForward =>
      match arg 1, arg 2 with
      | some d, some v => ⟨{ s with currCommand := .drivesDone }, [.autoDrivePoint d v], false⟩
      | _, _ => ⟨s, [], true⟩
  | .drivesTurn =>
      match arg 3, arg 1, arg 2 with
      | some mode, some a, some v =>
          -- an unknown mode falls back to an absolute turn; a missing one has raised
          let call := if mode = 1 then Call.autoTurnToHeading a v
            else if mode = 2 then .autoTurnToAngle a v else .autoTurnToHeading a v
          ⟨{ s with currCommand := .drivesDone }, [call], false⟩
      | _, _, _ => ⟨s, [], true⟩
  | .drivesMove =>
      match arg 1, arg 2, arg 3 with
      | some x, some y, some v =>
          ⟨{ s with currCommand := .drivesDone }, [.autoDriveCoordinate x y v], false⟩
      | _, _, _ => ⟨s, [], true⟩
  | .drivesLift =>
      let o := liftMove s
      { o with calls := .setTargetType .lift :: o.calls }
  | .drivesSetCoords =>
      match arg 1, arg 2 with
      | some x, some y => ⟨{ s with incStep := true }, [.setStartingCoordinate x y], false⟩
      | _, _ => ⟨s, [], true⟩
  | .drivesStop =>
      ⟨if r.stopped then { s with incStep := true } else s, [.stopDrives], false⟩
  | .ballacqToggle =>
      match arg 1, arg 2 with
      | some c, some sub => ⟨{ s with incStep := true }, [.autoChanger c sub], false⟩
      | _, _ => ⟨s, [], true⟩
  | .shooterToggle =>
      match arg 1, arg 2, arg 3, arg 4 with
      | some on, some v, some vis, some pos =>
          ⟨{ s with incStep := true }, [.shooterSystemState on v vis pos], false⟩
      | _, _, _, _ => ⟨s, [], true⟩
  | .shooterSetup =>
      match arg 1 with
      | some fire => ⟨{ s with incStep := true }, [.shooterSystemFire fire], false⟩
      | none => ⟨s, [], true⟩
  | .shooterTurret =>
      match arg 1 with
      | some a => ⟨{ s with incStep := true }, [.shooterSetTurret a], false⟩
      | none => ⟨s, [], true⟩
  | .backgroundDelay =>
      if s.backgroundWaitTime = 0 then
        match arg 1 with
        | none => ⟨s, [], true⟩
        | some t =>
            -- the timer is set before the target is read
            let s := { s with backgroundWaitTime := r.commandNow + t }
            match arg 2 with
            | some target => ⟨{ s with moveToStep := target, incStep := true }, [], false⟩
            | none => ⟨s, [], true⟩
      else ⟨{ s with currCommand := .autoEnd }, [], false⟩
  | .delay =>
      match arg 1 with
      | some t => ⟨{ s with waitTime := r.commandNow + t, currCommand := .waiting }, [], false⟩
      | none => ⟨s, [], true⟩
  | .drivesDone =>
      ⟨if r.autoDone then { s with incStep := true } else s, [.isAutoDone], false⟩
  | .waiting =>
      ⟨if r.commandNow ≥ s.waitTime then { s with incStep := true } else s, [], false⟩
  | .setCritStep =>
      match arg 1 with
      | none => ⟨s, [], true⟩
      | some step =>
          let s := { s with critStep := step }
          match arg 2 with
          | some t => ⟨{ s with critTime := s.autoStartTime + t, incStep := true }, [], false⟩
          | none => ⟨s, [], true⟩
  | .autoEnd =>
      ⟨{ s with incStep := false }, abortCommands ++ [.setTargetType .none], false⟩
  | .hold => ⟨{ s with incStep := false }, [], false⟩
  | .unknown _ =>
      ⟨{ s with incStep := false, currCommand := .autoEnd }, [.setTargetType .none], false⟩

/-- The checks and the switch, for an iteration that fetched `row` or no row. -/
def enter (r : Reading) (fired : Bool) (row : Option ℤ) (s : AutoState) : AutoState × Tick :=
  match guardStep s with
  | .error left => (left, { ran := true, critFired := fired, fetched := row, raised := true })
  | .ok entered =>
      let o := runCase r entered
      (o.state,
        { ran := true, critFired := fired, fetched := row, executed := some entered.currCommand,
          calls := o.calls, raised := o.raised })

def runAuto (r : Reading) (s : AutoState) : AutoState × Tick :=
  if r.mode.isEnabled && r.mode.isAutonomous then
    let fired := critFires r s
    let timed := checkBackground r (checkCrit r { s with autoRun := true })
    match fetchStep timed with
    | .error left => (left, { ran := true, critFired := fired, raised := true })
    | .ok fetched =>
        enter r fired (if timed.incStep then some fetched.currStep else none) fetched
  else (s, {})

/-- Only the assignments of `getCurrentAuto`; `execute` ignores what it returns. -/
def getCurrentAuto (r : Reading) (s : AutoState) : AutoState :=
  if (s.fromFile && decide (r.checkNow > s.lastRead + 10000)) || (s.fromFile && s.firstRun) then
    { s with firstRun := false, lastRead := r.readNow, currentAuto := r.selected }
  else s

/-- The disabled branch of `execute`. -/
def reset (r : Reading) (s : AutoState) : AutoState :=
  { getCurrentAuto r s with
    currStep := 0, autoStartTime := r.startNow, incStep := true, critTime := 0, critStep := 0 }

/-- The iteration takes the reset branch. -/
def Resets (r : Reading) : Prop := r.mode.isDisabled = true ∧ r.mode.isAutonomous = true

instance (r : Reading) : Decidable (Resets r) := by unfold Resets; infer_instance

def execute (r : Reading) (s : AutoState) : AutoState × Tick :=
  if r.mode.isEnabled && r.mode.isAutonomous && s.runAuto then runAuto r s
  else if r.mode.isDisabled && r.mode.isAutonomous then (reset r s, {})
  else (s, {})

def setRunAuto (auto : Bool) (s : AutoState) : AutoState × Tick :=
  let s := { s with runAuto := auto }
  if !s.runAuto && s.autoRun then ({ s with autoRun := false }, { calls := abortCommands })
  else (s, {})

/-- The threads that touch the autonomous state: its own loop and the robot callbacks. -/
inductive AutoEvent where
  | execute (r : Reading)
  | setRunAuto (auto : Bool)

def autoStep : Step AutoState AutoEvent Tick
  | s, .execute r => execute r s
  | s, .setRunAuto auto => setRunAuto auto s

/-- States reached from power-on by any events. -/
def Reachable (s : AutoState) : Prop := ∃ past, final autoStep {} past = s

end SparxRobot.Autonomous
