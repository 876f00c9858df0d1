import SparxRobot.Drives.State

/-! The odometry of the drives and their motions: the commands that start them, the helper
each iteration of a motion runs, and the commands that stop them. A command that is
refused leaves the state alone. -/
namespace SparxRobot.Drives

variable {R : Type*} [Field R] [LinearOrder R]

def isAutoDone (s : DrivesState R) : Bool :=
  decide (s.currentDriveState = .standby) || s.autoReady

/-- `getAdjustedAngle`, from what the gyro reads. -/
def getAdjustedAngle (angle : R) (s : DrivesState R) : R := angle - s.gyroZero

/-- Speeds, heading, distances and the dead-reckoned position. -/
def sense [FloorRing R] [JavaMath R] (r : DrivesReading R) (s : DrivesState R) :
    DrivesState R :=
  let currentAngle := Java.fmod (getAdjustedAngle r.angle s) 360
  let averageDistance := ((r.rightDistance - s.rightPreviousDistance) +
    (r.leftDistance - s.leftPreviousDistance)) / 2
  { s with
    navReady := s.navReady || r.connected
    rightCurrentSpeed := r.rightSpeed
    leftCurrentSpeed := r.leftSpeed
    averageSpeed := (r.rightSpeed + r.leftSpeed) / 2
    currentAngle := currentAngle
    rightCurrentDistance := r.rightDistance
    leftCurrentDistance := r.leftDistance
    averageDistance := averageDistance
    currentX := s.currentX + JavaMath.sin (Java.toRadians currentAngle) * averageDistance
    currentY := s.currentY + JavaMath.cos (Java.toRadians currentAngle) * averageDistance }

/-- The mean of the two wheel distances a reading shows. -/
def DrivesReading.wheelMean (r : DrivesReading R) : R := (r.rightDistance + r.leftDistance) / 2

/-- The mean of the two distances the next ones are compared with. -/
def previousMean (s : DrivesState R) : R :=
  (s.rightPreviousDistance + s.leftPreviousDistance) / 2

/-- The heading a reading shows, from what the gyro reads when the robot is placed. -/
def DrivesReading.headingFrom [FloorRing R] (placedAngle : R) (r : DrivesReading R) : R :=
  Java.fmod (r.angle - placedAngle) 360

section Commands

def autoDriveDistance (angle distance speed : R) (s : DrivesState R) : DrivesState R × Bool :=
  if !isAutoDone s then (s, false)
  else
    ({ s with
        driveDone := false
        wantedDistance := distance
        initialHeading := getAdjustedAngle angle s
        wantedSpeed := if distance < 0 then -speed else speed
        currentDriveState := .autoDriveDistance
        autoReady := false }, true)

def autoDrivePoint [JavaMath R] (angle distance speed : R) (s : DrivesState R) :
    DrivesState R × Bool :=
  if !isAutoDone s then (s, false)
  else
    let heading := getAdjustedAngle angle s
    ({ s with
        driveDone := false
        wantedDistance := distance
        initialHeading := heading
        endY := s.currentY + distance * JavaMath.cos (Java.toRadians heading)
        endX := s.currentX + distance * JavaMath.sin (Java.toRadians heading)
        wantedSpeed := if distance < 0 then -speed else speed
        currentDriveState := .autoDrivePoint
        autoReady := false }, true)

def autoDriveCoordinate [JavaMath R] (x y speed : R) (s : DrivesState R) :
    DrivesState R × Bool :=
  if !isAutoDone s then (s, false)
  else
    let bearing := Java.toDegrees (JavaMath.atan2 (x - s.currentX) (y - s.currentY))
    let heading :=
      if speed < 0 then
        if bearing + 180 ≥ 360 then bearing + 180 - 360 else bearing + 180
      else bearing
    ({ s with
        driveDone := false
        autoReady := false
        initialHeading := heading
        endY := y
        endX := x
        wantedSpeed := speed
        currentDriveState := .autoDrivePoint }, true)

/-- The distance and angle to the lift are the ones the camera shared last. -/
def moveToLift (angle distanceToLift angleToLift speed : R) (s : DrivesState R) :
    DrivesState R × Bool :=
  if !isAutoDone s then (s, false)
  else
    ({ s with
        driveDone := false
        autoReady := false
        initialHeading := getAdjustedAngle angle s
        wantedSpeed := speed
        wantedDistance := distanceToLift - LIFT_TAPE_GEAR_DISTANCE R
        wantedAngle := angleToLift
        currentDriveState := .autoDriveDistance }, true)

def autoTurnToHeading (angle speed : R) (s : DrivesState R) : DrivesState R × Bool :=
  if !isAutoDone s then (s, false)
  else
    ({ s with
        autoReady := false
        turnDone := false
        wantedAngle := angle
        wantedSpeed := speed
        currentDriveState := .autoTurn }, true)

def autoTurnToAngle (angle speed : R) (s : DrivesState R) : DrivesState R × Bool :=
  if !isAutoDone s then (s, false)
  else
    ({ s with
        turnDone := false
        autoReady := false
        wantedAngle := s.currentAngle + angle
        wantedSpeed := speed
        currentDriveState := .autoTurn }, true)

/-- The wanted speeds and powers go to zero at once; whether the robot stands is judged by
the speeds of the last iteration. -/
def stopDrives (s : DrivesState R) : DrivesState R × Bool :=
  let s := { s with
    autoReady := false
    currentDriveState := .autoStop
    wantedSpeed := 0
    rightWantedSpeed := 0
    leftWantedSpeed := 0
    rightSetPower := 0
    leftSetPower := 0 }
  if |s.leftCurrentSpeed| < 0.1 ∧ |s.rightCurrentSpeed| < 0.1 then
    ({ s with currentDriveState := .standby, autoReady := true }, true)
  else (s, false)

def abortAuto (s : DrivesState R) : DrivesState R := { s with currentDriveState := .autoAbort }

def setStartingCoordinate (angle x y : R) (s : DrivesState R) : DrivesState R :=
  { s with currentX := x, currentY := y, gyroZero := angle }

end Commands

section Helpers

/-- The end of a drive: the wheels stop and the drives are ready again. -/
def finishDrive (s : DrivesState R) : DrivesState R :=
  { s with
    rightWantedSpeed := 0
    leftWantedSpeed := 0
    straightCorrection := 0
    currentDriveState := .standby
    driveDone := true
    autoReady := true }

def driveDistance (r : DrivesReading R) (s : DrivesState R) : DrivesState R :=
  let straightCorrection := getAdjustedAngle r.correctionAngle s - s.initialHeading
  let averageDistance := (|r.rightDistance| + |r.leftDistance|) / 2
  let calculatedDistance :=
    if |s.averageSpeed| > 16 then s.wantedDistance - ((|s.averageSpeed| - 12) * 0.25 + 0.5)
    else s.wantedDistance
  let distanceToGo := calculatedDistance - averageDistance
  let wantedSpeed := if s.wantedSpeed > distanceToGo + 40 then distanceToGo + 40 else s.wantedSpeed
  let s := { s with
    autoReady := false
    straightCorrection := straightCorrection
    averageDistance := averageDistance
    calculatedDistance := calculatedDistance
    distanceToGo := distanceToGo
    wantedSpeed := wantedSpeed
    rightWantedSpeed := straightCorrection / 4 + wantedSpeed
    leftWantedSpeed := wantedSpeed - straightCorrection / 4 }
  if averageDistance ≥ |calculatedDistance - 0.5| then finishDrive s else s

def drivePoint [FloorRing R] [JavaMath R] (r : DrivesReading R) (s : DrivesState R) :
    DrivesState R :=
  let xChange := s.endX - s.currentX
  let yChange := s.endY - s.currentY
  let distanceToPoint := JavaMath.sqrt (xChange * xChange + yChange * yChange)
  let forward := Java.IEEEremainder
    (JavaMath.atan2 xChange yChange - Java.toRadians s.currentAngle) (JavaMath.pi * 2)
  let angleToEnd :=
    if s.wantedSpeed < 0 then Java.IEEEremainder (forward + JavaMath.pi) (JavaMath.pi * 2)
    else forward
  let offsetCorrection := JavaMath.sin angleToEnd * distanceToPoint
  let straightCorrection :=
    Java.IEEEremainder (getAdjustedAngle r.correctionAngle s - s.initialHeading) 360
  let averageDistance := (|r.rightDistance| + |r.leftDistance|) / 2
  let distanceToPoint :=
    if |s.averageSpeed| > 16 then distanceToPoint - ((|s.averageSpeed| - 12) * 0.32 + 0.5)
    else distanceToPoint
  let wantedSpeed :=
    if |s.wantedSpeed| > distanceToPoint + 40 then
      (distanceToPoint + 40) * (if s.wantedSpeed < 0 then -1 else 1)
    else s.wantedSpeed
  let s := { s with
    autoReady := false
    distanceToPoint := distanceToPoint
    angleToEnd := angleToEnd
    offsetCorrection := offsetCorrection
    straightCorrection := straightCorrection
    averageDistance := averageDistance
    wantedSpeed := wantedSpeed
    rightWantedSpeed := wantedSpeed + straightCorrection / 4 - offsetCorrection / 2
    leftWantedSpeed := wantedSpeed - straightCorrection / 4 + offsetCorrection / 2 }
  if distanceToPoint < 0.5 ∨ |angleToEnd| > Java.toRadians 90 then
    { finishDrive s with offsetCorrection := 0 }
  else s

def turn [FloorRing R] (s : DrivesState R) : DrivesState R :=
  let angleOffset := Java.IEEEremainder (s.wantedAngle - s.currentAngle) 360
  let averageTurningSpeed := |s.rightCurrentSpeed - s.leftCurrentSpeed| / 2
  let s := { s with autoReady := false, angleOffset := angleOffset }
  if |angleOffset| - (averageTurningSpeed - 9) * 0.5 < 3 then
    { s with
      rightWantedSpeed := 0
      leftWantedSpeed := 0
      currentDriveState := .standby
      turnDone := true
      autoReady := true }
  else
    let wantedSpeed :=
      if s.wantedSpeed > 12 + |angleOffset| / 2 then 12 + |angleOffset| / 2 else s.wantedSpeed
    if angleOffset > 0 then
      { s with
        wantedSpeed := wantedSpeed
        rightWantedSpeed := -wantedSpeed
        leftWantedSpeed := wantedSpeed }
    else
      { s with
        wantedSpeed := wantedSpeed
        rightWantedSpeed := wantedSpeed
        leftWantedSpeed := -wantedSpeed }

/-- A hold asks for its corrections through the commands, with `autoReady` just cleared. -/
def hold (r : DrivesReading R) (s : DrivesState R) : DrivesState R :=
  let changeY := s.currentY - s.previousY
  let changeAngle := s.currentAngle - s.previousAngle
  let s := { s with autoReady := false }
  let s := if |changeY| > 3 then
    (autoDriveDistance r.commandAngle changeY (HOLDING_DRIVE_SPEED R) s).1 else s
  let s := if |changeAngle| > 3 ∧ s.driveDone then
    (autoTurnToHeading s.previousAngle (HOLDING_TURN_SPEED R) s).1 else s
  if s.turnDone then { s with currentDriveState := .standby, autoReady := true } else s

/-- Stops the motors; the caller puts the state to standby. -/
def abort (s : DrivesState R) : DrivesState R :=
  { s with
    rightMotorFront := 0
    rightMotorBack := 0
    leftMotorFront := 0
    leftMotorBack := 0
    wantedSpeed := 0
    rightWantedSpeed := 0
    leftWantedSpeed := 0
    rightSetPower := 0
    leftSetPower := 0 }

end Helpers

end SparxRobot.Drives
