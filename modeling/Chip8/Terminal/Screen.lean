import Chip8.Machine.Basic
import Chip8.Room
import Chip8.Setting
import Chip8.Terminal.Call

/-!
# Chip8.Terminal.Screen — the picture on a terminal

Each pixel is a run of spaces, in reverse if the pixel is lit, as many as the
scale says. The line above the picture is the title. Everything is written on a
pad, and `pending` says whether the pad holds something that is not on the
screen yet.

* `draw` writes a picture, `setTitle` a title if it is short enough for the line.
* `refresh` shows the pad if something is pending. When the screen has a new
  size, it clears the screen and leaves the pad to the next time.
* `start` takes the terminal over, `close` gives it back.
-/

namespace Chip8.Terminal

/-- A terminal that shows the picture. -/
structure Screen where
  /-- How many characters wide a pixel is. -/
  scale : Int
  /-- The kind of cursor that was asked for. -/
  cursorMode : Value
  /-- The size of the screen when it was last shown, rows first. -/
  lastSize : Int × Int
  /-- Whether the pad holds something that is not on the screen. -/
  pending : Bool
  /-- How many pictures were drawn. -/
  frames : Nat
  /-- The last title, or nothing. -/
  title : Value
deriving Repr

namespace Screen

/-- Why a terminal cannot be taken over. -/
inductive StartError where
  /-- The scale is not a whole number. -/
  | scale (kind : ValueKind)
  /-- There is no room for the spaces of a pixel. -/
  | noRoom (cause : RoomError)
  /-- The terminal does not know the asked-for kind of cursor. -/
  | cursorRefused
deriving DecidableEq, Repr

/-- The report of a terminal that cannot be taken over. -/
def StartError.message : StartError → String
  | scale kind => "The scale cannot be " ++ kind.label
  | noRoom cause => cause.message
  | cursorRefused => "The terminal does not support this kind of cursor"

/-- The scale that is used unless another is given. -/
def defaultScale : Int := 2

/-- The kind of cursor that is used unless another is given: none. -/
def hiddenCursor : Value := .whole 0

/-- How many characters a row of the picture takes. -/
def lineLength (s : Screen) : Int := displayWidth * s.scale

/-- The scale that a value asks for. There has to be room for so many spaces;
fewer than none are none. -/
def scaleOf (scale : Value) : Except StartError Int :=
  match (Setting.ofValue Value.whole? scale).optional with
  | .error kind => .error (.scale kind)
  | .ok asked =>
    let scale := asked.getD defaultScale
    match room scale with
    | .ok _ | .error .negative => .ok scale
    | .error cause => .error (.noRoom cause)

/-- Takes the terminal over. `refused` says whether the terminal refuses the
kind of cursor. -/
def start (scale cursorMode : Value) (refused : Bool) :
    List Call × Except StartError Screen :=
  match scaleOf scale with
  | .error e => ([], .error e)
  | .ok scale =>
    -- No screen is of this size, so the first that is seen is a new one.
    let s : Screen := ⟨scale, cursorMode, (-1, -1), false, 0, .nothing⟩
    -- The terminal is entered before the cursor is asked for, and a refusal leaves it
    -- entered.
    if refused then ([.enter, .cursor cursorMode], .error .cursorRefused)
    else
      ([.enter, .cursor cursorMode, .echoOff, .lineModeOff,
        .newPad (displayHeight + 1) (s.lineLength + 1)], .ok s)

/-- `n` spaces, none if `n` is negative. -/
def spaces (n : Int) : Text := List.replicate n.toNat (.char ' ')

/-- Writes the pixel that stands at `location` in the row after row order, with
`text` in its place. -/
def cell (s : Screen) (text : Text) (location : Nat) (pixel : UInt8) : Call :=
  .write (location / displayWidth + 1 : Nat) ((location % displayWidth : Nat) * s.scale)
    text (pixel != 0)

/-- Draws a picture of one byte for each pixel. A pixel is lit unless its byte
is zero. -/
def draw (s : Screen) (frame : Array UInt8) : Screen × List Call :=
  let text := spaces s.scale
  ({ s with pending := true, frames := s.frames + 1 }, (frame.mapIdx (s.cell text)).toList)

/-- Sets the title. One that does not fit on its line is not written. -/
def setTitle (s : Screen) (title : Text) : Screen × List Call :=
  let room := s.lineLength - title.length
  if 0 < room then
    ({ s with pending := true, title := .text title },
      [.write 0 0 (title ++ spaces room) true])
  else ({ s with title := .text title }, [])

/-- Why a value cannot be a title. -/
inductive TitleError where
  /-- Values of this kind have no size. -/
  | noSize (kind : ValueKind)
  /-- Values of this kind cannot be filled up with spaces. -/
  | noText (kind : ValueKind)
deriving DecidableEq, Repr

/-- The report of a value that cannot be a title. -/
def TitleError.message : TitleError → String
  | noSize kind => "The title cannot be " ++ kind.label
  | noText kind => "The title cannot be written as it is " ++ kind.label

/-- Sets the title to a value. One that is not a text has to be too large for the
line, so that it is not written. -/
def setTitleValue (s : Screen) (title : Value) : Except TitleError (Screen × List Call) :=
  match title.text?, title.size? with
  | some text, _ => .ok (s.setTitle text)
  | none, none => .error (.noSize title.kind)
  | none, some size =>
    if size < s.lineLength then .error (.noText title.kind) else .ok ({ s with title := title }, [])

/-- Brings the screen, of the given size, up to date. `canResize` says whether
the terminal can be told of a new size. -/
def refresh (s : Screen) (size : Int × Int) (canResize : Bool) : Screen × List Call :=
  if size = s.lastSize then
    if s.pending then
      ({ s with pending := false }, [.showPad (size.1 - 1) (size.2 - 1)])
    else (s, [])
  else
    ({ s with lastSize := size, pending := true },
      .clear :: (if canResize then [.resize size.1 size.2] else []) ++ [.refresh])

/-- The kind of cursor that every terminal has. -/
def plainCursor : Figure := .whole 1

/-- Whether the cursor is of the plain kind already. -/
def hasPlainCursor (s : Screen) : Bool := (s.cursorMode.figure? >>= Figure.whole?) == some 1

/-- Gives the terminal back, with a plain cursor. -/
def close (s : Screen) : List Call :=
  .lineModeOn :: .echoOn ::
    (if s.hasPlainCursor then [] else [.cursor plainCursor.value]) ++ [.leave]

end Screen

end Chip8.Terminal
