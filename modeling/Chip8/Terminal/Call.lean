import Chip8.Value

/-!
# Chip8.Terminal.Call — what is asked of a terminal

The calls that the emulator makes on a full-screen terminal, in its own words.
Their order is what a terminal sees of the emulator. The picture is written on
a pad, which is larger than the screen may be and is shown on it as a whole.
-/

namespace Chip8.Terminal

/-- A call on the terminal. -/
inductive Call where
  /-- Take the screen over. -/
  | enter
  /-- Give the screen back. -/
  | leave
  /-- Make the cursor invisible (`0`), normal (`1`) or bright (`2`). The terminal
  judges any other kind of cursor itself. -/
  | cursor (mode : Value)
  | echoOff
  | echoOn
  /-- Report each character at once. -/
  | lineModeOff
  /-- Report characters a line at a time. -/
  | lineModeOn
  /-- Ring the bell. -/
  | bell
  | newPad (rows columns : Int)
  /-- Take note of a new size of the screen. -/
  | resize (rows columns : Int)
  | clear
  | refresh
  /-- Show the pad from its upper left corner on, on the screen down to this
  row and column. -/
  | showPad (lastRow lastColumn : Int)
  /-- Write on the pad, in reverse or not. -/
  | write (row column : Int) (text : Text) (reverse : Bool)
deriving Repr

end Chip8.Terminal
