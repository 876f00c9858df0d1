import Mathlib.Data.Bool.Basic

/-! The driver-station mode as the subsystems read it. -/
namespace SparxRobot

/-- The control-word flags. -/
structure Mode where
  enabled : Bool
  autonomous : Bool
  test : Bool
  deriving DecidableEq, Repr

namespace Mode

def isEnabled (m : Mode) : Bool := m.enabled

def isDisabled (m : Mode) : Bool := !m.enabled

def isAutonomous (m : Mode) : Bool := m.autonomous

/-- WPILib reports operator control exactly when neither other mode is reported. -/
def isOperatorControl (m : Mode) : Bool := !(m.autonomous || m.test)

theorem not_operatorControl_of_autonomous {m : Mode} (h : m.isAutonomous = true) :
    m.isOperatorControl = false := by
  simp only [isAutonomous] at h
  simp [isOperatorControl, h]

/-- Enabled autonomous, the mode a script runs in. -/
def autoEnabled : Mode := ⟨true, true, false⟩

/-- Disabled autonomous, the mode before a match starts. -/
def autoDisabled : Mode := ⟨false, true, false⟩

/-- Enabled operator control. -/
def teleopEnabled : Mode := ⟨true, false, false⟩

end Mode

/-- `SharedData.Target`: what the camera is asked to look for. -/
inductive Target where
  | none | boiler | lift
  deriving DecidableEq, Repr

end SparxRobot
