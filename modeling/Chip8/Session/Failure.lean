import Chip8.Options
import Chip8.Pacer
import Chip8.ProgramFile
import Chip8.Terminal.Screen
import Chip8.Window.Screen

/-!
# Chip8.Session.Failure — why a session fails

The causes of all stages of a session in one type. A session that does not fail
was ended by the user.
-/

namespace Chip8

/-- Why a session fails. -/
inductive Failure where
  /-- An option is asked for that the request does not have. -/
  | missingOption (name : OptionName)
  /-- A window is asked for, but there is no window system. -/
  | noWindows
  /-- A terminal is asked for, but there is none. -/
  | noTerminal
  /-- There is nothing to choose a front end from. -/
  | noFrontEnd
  /-- What is asked for is not one of the front ends. -/
  | unknownFrontEnd
  /-- An option is set to a value of a wrong kind. -/
  | wrongKind (cause : WrongKind)
  | program (cause : ProgramFile.Error)
  | window (cause : Window.Screen.Error)
  | terminal (cause : Terminal.Screen.StartError)
  | load (cause : Machine.LoadError)
  | keymap (cause : KeyMap.ParseError)
  | rate (cause : Pacer.RateError)
  | fault (cause : Fault)
  | endlessTime
  | clockStopped
deriving DecidableEq, Repr

namespace Failure

/-- The report of a failure. -/
def message : Failure → Text
  | missingOption name => "The option '" ++ name.label ++ "' is missing"
  | noWindows => "PyGame does not appear to be installed."
  | noTerminal => "Curses (or Windows-Curses) does not appear to be installed."
  | noFrontEnd => "Neither PyGame nor Curses (or Windows-Curses) appear to be installed."
  | unknownFrontEnd => "There is no such front end"
  | wrongKind cause => cause.message
  | program cause => cause.message
  | window cause => cause.message
  | terminal cause => cause.message
  | load cause => cause.message
  | keymap cause => cause.message
  | rate cause => cause.message
  | fault cause => cause.message
  | endlessTime => "The clock shows an infinite time"
  | clockStopped => "The clock has stopped"

/-- The failure that an ending of a run stands for, if it stands for one. -/
def ofEnding? : Pacer.Ending → Option Failure
  | .quit => none
  | .fault cause => some (.fault cause)
  | .endlessTime => some .endlessTime
  | .clockStopped => some .clockStopped

end Failure

end Chip8
