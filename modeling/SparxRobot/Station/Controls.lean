import Mathlib.Data.Fin.VecNotation
import SparxRobot.Machine.Run
import SparxRobot.Station.Buttons

/-! `DriverStationControls`: the edge tables of the buttons and of the POV. The tables of
recorded edges, the last values and `POVData` are static, shared by every object; only
`buttonData` is kept by each object for itself. -/
namespace SparxRobot.Controls
open Machine

abbrev maxButtons : ℕ := 18
abbrev maxPOVs : ℕ := 8

def JOY_TRIGGER : ℕ := 1
def JOY_LEFT : ℕ := 2
def JOY_RIGHT : ℕ := 3
def JOY_MIDDLE : ℕ := 4
def XBOX_A : ℕ := 1
def XBOX_B : ℕ := 2
def XBOX_X : ℕ := 3
def XBOX_Y : ℕ := 4
def XBOX_L1 : ℕ := 5
def XBOX_R1 : ℕ := 6
def XBOX_BACK : ℕ := 7
def XBOX_START : ℕ := 8
def XBOX_L3 : ℕ := 9
def XBOX_R3 : ℕ := 10

def OP_XBOX_POV_UP : ℤ := 0
def OP_XBOX_POV_RIGHT : ℤ := 2
def OP_XBOX_POV_DOWN : ℤ := 4
def OP_XBOX_POV_LEFT : ℤ := 6

/-- Joystick number and raw button number of each button. -/
def buttons : Fin maxButtons → ℕ × ℕ :=
  ![(0, JOY_TRIGGER), (0, JOY_LEFT), (0, JOY_RIGHT), (0, JOY_MIDDLE),
    (1, JOY_TRIGGER), (1, JOY_LEFT), (1, JOY_RIGHT), (1, JOY_MIDDLE),
    (2, XBOX_A), (2, XBOX_B), (2, XBOX_X), (2, XBOX_Y), (2, XBOX_L1), (2, XBOX_R1),
    (2, XBOX_BACK), (2, XBOX_START), (2, XBOX_L3), (2, XBOX_R3)]

/-- Joystick number and angle of each POV direction. -/
def povs : Fin maxPOVs → ℕ × ℤ :=
  ![(2, 0), (2, 45), (2, 90), (2, 135), (2, 180), (2, 225), (2, 270), (2, 315)]

/-- The two columns of an edge table. -/
inductive Edge where
  | rising | falling
  deriving DecidableEq, Repr

/-- A row of an edge table: the time of the last edge of each kind. -/
abbrev EdgeTimes := Edge → ℤ

/-- The tables; `buttonData` has one for each object `ι`. -/
structure ControlsState (ι : Type*) where
  POVData : Fin maxPOVs → EdgeTimes := fun _ _ => 0
  POVDataGlobal : Fin maxPOVs → EdgeTimes := fun _ _ => 0
  POVLastValues : Fin maxPOVs → Bool := fun _ => false
  buttonDataGlobal : Fin maxButtons → EdgeTimes := fun _ _ => 0
  buttonData : ι → Fin maxButtons → EdgeTimes := fun _ _ _ => 0
  buttonLastValues : Fin maxButtons → Bool := fun _ => false

/-- What `update` reads: the raw joysticks, and the clock at each edge it records. -/
structure ControlsReading where
  isNewControlData : Bool := true
  rawButton : ℕ → ℕ → Bool := fun _ _ => false
  rawPOV : ℕ → ℤ := fun _ => -1
  buttonNow : Fin maxButtons → ℤ := fun _ => 0
  povNow : Fin maxPOVs → ℤ := fun _ => 0

def getButton (r : ControlsReading) (b : Fin maxButtons) : Bool :=
  r.rawButton (buttons b).1 (buttons b).2

def getPOV (r : ControlsReading) (p : Fin maxPOVs) : Bool :=
  decide (r.rawPOV 2 = (povs p).2)

/-- The edge between two values, if there is one. -/
def edgeOf (last value : Bool) : Option Edge :=
  if value = last then none else if value then some .rising else some .falling

/-- The row after a value has been looked at. -/
def recordEdge (last value : Bool) (now : ℤ) (times : EdgeTimes) : EdgeTimes :=
  match edgeOf last value with
  | some e => Function.update times e now
  | none => times

section Objects

variable {ι : Type*}

/-- The state the constructors leave: the buttons stand at their current values. -/
def constructed (current : Fin maxButtons → Bool) : ControlsState ι :=
  { buttonLastValues := current }

/-- Any object's `update`. -/
def update (r : ControlsReading) (s : ControlsState ι) : ControlsState ι :=
  if r.isNewControlData then
    { s with
      buttonDataGlobal := fun b =>
        recordEdge (s.buttonLastValues b) (getButton r b) (r.buttonNow b) (s.buttonDataGlobal b)
      buttonLastValues := getButton r
      POVDataGlobal := fun p =>
        recordEdge (s.POVLastValues p) (getPOV r p) (r.povNow p) (s.POVDataGlobal p)
      POVLastValues := getPOV r }
  else s

/-- The row a number stands for, if it is one of the `n` rows. -/
def rowOf (n : ℕ) (number : ℤ) : Option (Fin n) :=
  if h : 0 ≤ number ∧ number < n then some ⟨number.toNat, by omega⟩ else none

variable [DecidableEq ι]

/-- The body of `getButtonRising` and `getButtonFalling`. A number that is no button is an
index out of bounds: no answer. -/
def getButtonEdge (e : Edge) (i : ι) (buttonNumber : ℤ) (s : ControlsState ι) :
    ControlsState ι × Option Bool :=
  match rowOf maxButtons buttonNumber with
  | none => (s, none)
  | some b =>
      let o := SparxRobot.getButtonRising (s.buttonData i b e) (s.buttonDataGlobal b e)
      ({ s with
          buttonData := Function.update s.buttonData i
            (Function.update (s.buttonData i) b (Function.update (s.buttonData i b) e o.2)) },
        some o.1)

def getButtonRising (i : ι) := getButtonEdge (ι := ι) .rising i

def getButtonFalling (i : ι) := getButtonEdge (ι := ι) .falling i

end Objects

section Shared

variable {ι : Type*}

/-- The body of `getPOVRising` and `getPOVFalling`: it reads and writes the shared
`POVData`, whichever object is asked. -/
def getPOVEdge (e : Edge) (POVNumber : ℤ) (s : ControlsState ι) : ControlsState ι × Option Bool :=
  match rowOf maxPOVs POVNumber with
  | none => (s, some false)
  | some p =>
      if s.POVData p e < s.POVDataGlobal p e then
        ({ s with
            POVData := Function.update s.POVData p
              (Function.update (s.POVData p) e (s.POVDataGlobal p e)) }, some true)
      else (s, some false)

def getPOVRising := getPOVEdge (ι := ι) .rising

def getPOVFalling := getPOVEdge (ι := ι) .falling

end Shared

/-- The calls on the objects, in any interleaving. -/
inductive ControlsEvent (ι : Type*) where
  | update (i : ι) (r : ControlsReading)
  | buttonEdge (e : Edge) (i : ι) (buttonNumber : ℤ)
  | povEdge (e : Edge) (i : ι) (POVNumber : ℤ)

/-- The output is the answer of the call, if it gives one. -/
def controlsStep {ι : Type*} [DecidableEq ι] :
    Step (ControlsState ι) (ControlsEvent ι) (Option Bool)
  | s, .update _ r => (update r s, none)
  | s, .buttonEdge .rising i b => getButtonRising i b s
  | s, .buttonEdge .falling i b => getButtonFalling i b s
  | s, .povEdge .rising _ p => getPOVRising p s
  | s, .povEdge .falling _ p => getPOVFalling p s

abbrev ControlsMoment (ι : Type*) := Moment (ControlsState ι) (ControlsEvent ι) (Option Bool)

end SparxRobot.Controls
