import SparxRobot.Vision.ConfigReader

/-! What the finders tell their rectangle finder: settings from a file, each with a constant for
where the file gives none. The greatest value of a colour falls back on the least. -/
namespace SparxRobot.Vision
open Cpp ConfigReader

structure RectangleFinderConfig where
  debug : Bool
  debugDirectory : Text
  useCamera : Bool
  cameraID : UInt32
  hueMin : UInt32
  hueMax : UInt32
  saturationMin : UInt32
  saturationMax : UInt32
  valueMin : UInt32
  valueMax : UInt32
  blurFactor : UInt32
  deriving DecidableEq

/-- The constants a finder declares. -/
structure FinderConstants where
  DEBUG : Bool
  DEBUG_DIR : Text
  USE_CAMERA : Bool
  CAMERA_ID : UInt32
  HUE_MIN : UInt32
  HUE_MAX : UInt32
  SATURATION_MIN : UInt32
  SATURATION_MAX : UInt32
  VALUE_MIN : UInt32
  VALUE_MAX : UInt32
  BLUR_FACTOR : UInt32

def HighGoalFinder.constants : FinderConstants where
  DEBUG := false
  DEBUG_DIR := "/home/ubuntu/Development/Vision/logs/HighGoalFinder".toList
  USE_CAMERA := true
  CAMERA_ID := 0
  HUE_MIN := 40
  HUE_MAX := 85
  SATURATION_MIN := 200
  SATURATION_MAX := 255
  VALUE_MIN := 37
  VALUE_MAX := 255
  BLUR_FACTOR := 8

def PegFinder.constants : FinderConstants where
  DEBUG := false
  DEBUG_DIR := "/home/ubuntu/Development/Vision/logs/PegFinder".toList
  USE_CAMERA := true
  CAMERA_ID := 1
  HUE_MIN := 40
  HUE_MAX := 85
  SATURATION_MIN := 200
  SATURATION_MAX := 255
  VALUE_MIN := 37
  VALUE_MAX := 255
  BLUR_FACTOR := 8

/-- The constructors' common part. The camera has a file of its own, with a number in it. -/
def configure (c : FinderConstants) (cameraFile configFile : Option Text) : RectangleFinderConfig :=
  let reader := ConfigReader configFile
  { debug := GetBool reader "DEBUG".toList c.DEBUG
    debugDirectory := GetString reader "DEBUG_DIR".toList c.DEBUG_DIR
    useCamera := GetBool reader "USE_CAMERA".toList c.USE_CAMERA
    cameraID := (extractUInt (cameraFile.getD [])).getD c.CAMERA_ID
    hueMin := GetUInt reader "HUE_MIN".toList c.HUE_MIN
    hueMax := GetUInt reader "HUE_MAX".toList c.HUE_MAX
    saturationMin := GetUInt reader "SATURATION_MIN".toList c.SATURATION_MIN
    saturationMax := GetUInt reader "SATURATION_MAX".toList c.SATURATION_MAX
    valueMin := GetUInt reader "VALUE_MIN".toList c.VALUE_MIN
    valueMax := GetUInt reader "VALUE_MAX".toList c.VALUE_MIN
    blurFactor := GetUInt reader "BLUR_FACTOR".toList c.BLUR_FACTOR }

def HighGoalFinder.config (cameraFile configFile : Option Text) : RectangleFinderConfig :=
  configure HighGoalFinder.constants cameraFile configFile

def PegFinder.config (cameraFile configFile : Option Text) : RectangleFinderConfig :=
  configure PegFinder.constants cameraFile configFile

inductive Finder where
  | highGoal | peg
  deriving DecidableEq, Repr

namespace Finder

def constants : Finder → FinderConstants
  | highGoal => HighGoalFinder.constants
  | peg => PegFinder.constants

def config : Finder → Option Text → Option Text → RectangleFinderConfig
  | highGoal => HighGoalFinder.config
  | peg => PegFinder.config

end Finder

/-- The configuration in which every setting has its own constant to fall back on. -/
def intended (c : FinderConstants) (cameraFile configFile : Option Text) :
    RectangleFinderConfig where
  debug := setting readBool configFile "DEBUG".toList c.DEBUG
  debugDirectory := setting some configFile "DEBUG_DIR".toList c.DEBUG_DIR
  useCamera := setting readBool configFile "USE_CAMERA".toList c.USE_CAMERA
  cameraID := (extractUInt (cameraFile.getD [])).getD c.CAMERA_ID
  hueMin := setting readUInt configFile "HUE_MIN".toList c.HUE_MIN
  hueMax := setting readUInt configFile "HUE_MAX".toList c.HUE_MAX
  saturationMin := setting readUInt configFile "SATURATION_MIN".toList c.SATURATION_MIN
  saturationMax := setting readUInt configFile "SATURATION_MAX".toList c.SATURATION_MAX
  valueMin := setting readUInt configFile "VALUE_MIN".toList c.VALUE_MIN
  valueMax := setting readUInt configFile "VALUE_MAX".toList c.VALUE_MAX
  blurFactor := setting readUInt configFile "BLUR_FACTOR".toList c.BLUR_FACTOR

/-- The file gives the key a value, and it reads as this. -/
def Gives {α : Type*} (read : Text → Option α) (file : Option Text) (key : Text) (v : α) : Prop :=
  (valueOf file key).bind read = some v

/-- The file states every constant of the finder under its key. -/
structure StatesDefaults (c : FinderConstants) (file : Option Text) : Prop where
  debug : Gives readBool file "DEBUG".toList c.DEBUG
  debugDirectory : Gives some file "DEBUG_DIR".toList c.DEBUG_DIR
  useCamera : Gives readBool file "USE_CAMERA".toList c.USE_CAMERA
  hueMin : Gives readUInt file "HUE_MIN".toList c.HUE_MIN
  hueMax : Gives readUInt file "HUE_MAX".toList c.HUE_MAX
  saturationMin : Gives readUInt file "SATURATION_MIN".toList c.SATURATION_MIN
  saturationMax : Gives readUInt file "SATURATION_MAX".toList c.SATURATION_MAX
  valueMin : Gives readUInt file "VALUE_MIN".toList c.VALUE_MIN
  valueMax : Gives readUInt file "VALUE_MAX".toList c.VALUE_MAX
  blurFactor : Gives readUInt file "BLUR_FACTOR".toList c.BLUR_FACTOR

/-- The file has the values of the complete one, but for the keys that are left out of it. -/
def LeavesOut (complete file : Option Text) : Prop :=
  ∀ key value, valueOf file key = some value → valueOf complete key = some value

/-- Every key falls back on its own constant, so that keys may be left out of a file that states
the constants. -/
structure FallsBack (finder : Finder) (cameraFile configFile : Option Text) : Prop where
  own : finder.config cameraFile configFile = intended finder.constants cameraFile configFile
  leftOut : ∀ complete, StatesDefaults finder.constants complete → LeavesOut complete configFile →
    finder.config cameraFile configFile = finder.config cameraFile complete

section FallsBack

variable {α : Type*} {read : Text → Option α} {c : FinderConstants} {file complete : Option Text}
  {key : Text} {d e : α}

theorem setting_of_gives (h : Gives read file key d) : setting read file key e = d := by
  rw [setting, h, Option.getD_some]

/-- The default is seen exactly where the file gives nothing that can be read. -/
theorem setting_eq_setting_iff (h : d ≠ e) : setting read file key d = setting read file key e ↔
    ((valueOf file key).bind read).isSome = true := by
  unfold setting
  cases (valueOf file key).bind read with
  | none => simp [h]
  | some v => simp

/-- A key that is left out of a file that states its default makes no difference. -/
theorem setting_of_leavesOut (hgives : Gives read complete key d)
    (hout : LeavesOut complete file) : setting read file key d = setting read complete key d := by
  rw [setting_of_gives hgives, setting]
  cases hvalue : valueOf file key with
  | none => rfl
  | some value =>
    have hread : read value = some d := by
      rw [Gives, hout key value hvalue, Option.bind_some] at hgives
      exact hgives
    rw [Option.bind_some, hread, Option.getD_some]

theorem intended_of_leavesOut (hstates : StatesDefaults c complete)
    (hout : LeavesOut complete file) (cameraFile : Option Text) :
    intended c cameraFile file = intended c cameraFile complete := by
  unfold intended
  rw [setting_of_leavesOut hstates.debug hout, setting_of_leavesOut hstates.debugDirectory hout,
    setting_of_leavesOut hstates.useCamera hout, setting_of_leavesOut hstates.hueMin hout,
    setting_of_leavesOut hstates.hueMax hout, setting_of_leavesOut hstates.saturationMin hout,
    setting_of_leavesOut hstates.saturationMax hout, setting_of_leavesOut hstates.valueMin hout,
    setting_of_leavesOut hstates.valueMax hout, setting_of_leavesOut hstates.blurFactor hout]

/-- The greatest value alone has another constant to fall back on. -/
theorem configure_eq (c : FinderConstants) (cameraFile file : Option Text) :
    configure c cameraFile file = { intended c cameraFile file with
      valueMax := setting readUInt file "VALUE_MAX".toList c.VALUE_MIN } := by
  simp only [configure, intended, getBool_eq, getUInt_eq, getString_eq]

theorem configure_eq_intended_iff (h : c.VALUE_MIN ≠ c.VALUE_MAX) (cameraFile : Option Text) :
    configure c cameraFile file = intended c cameraFile file ↔
      ((valueOf file "VALUE_MAX".toList).bind readUInt).isSome = true := by
  rw [configure_eq, ← setting_eq_setting_iff h]
  constructor
  · exact fun hconfig => congrArg RectangleFinderConfig.valueMax hconfig
  · intro hmax
    rw [hmax]
    rfl

end FallsBack

section Finders

variable (finder : Finder) (cameraFile configFile : Option Text)

theorem Finder.config_eq : finder.config cameraFile configFile =
    configure finder.constants cameraFile configFile := by
  cases finder <;> rfl

theorem Finder.constants_ne : finder.constants.VALUE_MIN ≠ finder.constants.VALUE_MAX := by
  cases finder <;> decide

/-- Whatever the files hold, every key falls back on its own constant exactly when the greatest
value of a colour does not have to fall back. -/
theorem fallsBack_iff : FallsBack finder cameraFile configFile ↔
    ((valueOf configFile "VALUE_MAX".toList).bind readUInt).isSome = true := by
  have hown : ∀ file, finder.config cameraFile file = intended finder.constants cameraFile file ↔
      ((valueOf file "VALUE_MAX".toList).bind readUInt).isSome = true := by
    intro file
    rw [finder.config_eq]
    exact configure_eq_intended_iff finder.constants_ne cameraFile
  constructor
  · exact fun hfalls => (hown configFile).mp hfalls.own
  · intro hmax
    refine ⟨(hown configFile).mpr hmax, fun complete hstates hout => ?_⟩
    have hcomplete : ((valueOf complete "VALUE_MAX".toList).bind readUInt).isSome = true :=
      Option.isSome_of_eq_some hstates.valueMax
    rw [(hown configFile).mpr hmax, (hown complete).mpr hcomplete]
    exact intended_of_leavesOut hstates hout cameraFile

/-- Without a file the greatest value of a colour is the least. -/
theorem missingFile_not_fallsBack : ¬ ∀ finder cameraFile configFile,
    FallsBack finder cameraFile configFile := by
  intro hall
  have hown := (hall .highGoal none none).own
  rw [Finder.config_eq, configure_eq_intended_iff (Finder.constants_ne .highGoal)] at hown
  exact absurd hown (by decide)

/-- A file with the words of the one that comes with the program states the constants. -/
example {file : Option Text} (h : words (file.getD []) =
    ["DEBUG", "false", "DEBUG_DIR", "/home/ubuntu/Development/Vision/logs/PegFinder",
      "USE_CAMERA", "true", "HUE_MIN", "40", "HUE_MAX", "85", "SATURATION_MIN", "200",
      "SATURATION_MAX", "255", "VALUE_MIN", "37", "VALUE_MAX", "255", "BLUR_FACTOR",
      "8"].map String.toList) : StatesDefaults PegFinder.constants file := by
  constructor <;> unfold Gives valueOf <;> rw [h] <;> decide +kernel

end Finders

end SparxRobot.Vision
