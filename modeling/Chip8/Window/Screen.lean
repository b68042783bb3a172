import Chip8.Machine.Basic
import Chip8.Options
import Chip8.Window.Palette

/-!
# Chip8.Window.Screen — the picture in a window

The picture is kept as one colour for each pixel. To show it, an image is made
from the colours, smoothed as often as asked for, stretched to the size of the
window and put into it. Nothing is shown again unless a picture was drawn since.

* `start` opens the window and shows the background.
* `draw` paints a picture, `refresh` shows it, `setTitle` sets the caption.
-/

namespace Chip8.Window

/-- A window that shows the picture. -/
structure Screen where
  /-- How wide the window is; it is half as high. -/
  scale : Figure
  /-- How often the image is smoothed. -/
  passes : Nat
  palette : Palette
  /-- The colour of each pixel, row after row. -/
  pixels : Array Colour
  /-- Whether a picture was drawn that has not been shown. -/
  changed : Bool
  /-- How many pictures were drawn. -/
  frames : Nat
  title : Value
deriving Repr

namespace Screen

/-- Why the window cannot do what it is asked to. -/
inductive Error where
  /-- An option is set to a value of a wrong kind. -/
  | option (cause : WrongKind)
  | palette (cause : Palette.ParseError)
  /-- A byte of the picture is neither unlit nor lit. -/
  | noColour (pixel : UInt8)
  /-- The picture has more pixels than the window. -/
  | tooLarge
deriving DecidableEq, Repr

/-- The report of a failure. -/
def Error.message : Error → String
  | option cause => cause.message
  | palette cause => cause.message
  | noColour pixel => "There is no colour for the pixel value " ++ toString pixel.toNat
  | tooLarge => "The picture is larger than the window"

/-- The width that is used unless another is given. -/
def defaultScale : Figure := .whole 640

/-- The width and height of the window. -/
def size (s : Screen) : Figure × Figure := (s.scale, s.scale.half)

/-- The image of the picture. -/
def imageCall (s : Screen) : Call := .image displayWidth displayHeight s.pixels

/-- Shows the picture if it was drawn since it was last shown. -/
def refresh (s : Screen) : Screen × List Call :=
  if s.changed then
    ({ s with changed := false },
      s.imageCall :: List.replicate s.passes .smooth ++
        [.stretch s.size.1 s.size.2, .put 0 0, .flip])
  else (s, [])

/-- Sets the caption. -/
def setTitle (s : Screen) (title : Value) : Screen × List Call :=
  ({ s with title := title }, [.caption title])

/-- Paints the pixels from `location` on, up to the first that has no colour or
no place. -/
def paint (palette : Palette) (pixels : Array Colour) (location : Nat) :
    List UInt8 → Array Colour × Option Error
  | [] => (pixels, none)
  | pixel :: rest =>
    match palette.of? pixel with
    | none => (pixels, some (.noColour pixel))
    | some colour =>
      if h : location < pixels.size then
        paint palette (pixels.set location colour) (location + 1) rest
      else (pixels, some .tooLarge)

/-- Draws a picture of one byte for each pixel, which is zero or one. -/
def draw (s : Screen) (frame : Array UInt8) : Screen × Option Error :=
  match paint s.palette s.pixels 0 frame.toList with
  | (pixels, some e) => ({ s with pixels := pixels }, some e)
  | (pixels, none) =>
    ({ s with pixels := pixels, changed := true, frames := s.frames + 1 }, none)

/-- A window whose pixels all have the background colour. -/
def blank (scale : Figure) (passes : Nat) (palette : Palette) : Screen :=
  ⟨scale, passes, palette, Array.replicate (displayWidth * displayHeight) palette.background,
    true, 0, .text Banner.name⟩

/-! ### Opening

A window is opened in four steps. Each option is looked at when its step comes,
so a wrong one leaves the calls of the steps before it behind. -/

/-- The calls of the first step, which needs no option. -/
def displayCalls : List Call := [.openDisplay, .caption (.text Banner.name)]

/-- The calls of the second step, which makes a window of a width. -/
def modeCalls (width : Figure) : List Call := [.setMode width width.half 0 8, .opaqueSurface]

/-- The width that a scale asks for. -/
def widthOf (scale : Value) : Except Error Figure :=
  match (Setting.ofValue Value.figure? scale).optional with
  | .error kind => .error (.option ⟨.scale, kind⟩)
  | .ok asked => .ok (asked.getD defaultScale)

/-- The palette that a setting asks for. -/
def paletteOf (setting : Setting Text) : Except Error Palette :=
  match setting.optional with
  | .error kind => .error (.option ⟨.palette, kind⟩)
  | .ok asked => (Palette.ofOption asked).mapError .palette

/-- The last step: makes an image of the background, smooths it and shows it. A
negative number of smoothing passes is none; that there is no such number is
noticed when the image has been made. -/
def present (width : Figure) (palette : Palette) (smoothing : Setting Int) :
    List Call × Except Error Screen :=
  match smoothing.required with
  | .error kind => ([(blank width 0 palette).imageCall], .error (.option ⟨.smoothing, kind⟩))
  | .ok passes =>
    let (s, calls) := (blank width passes.toNat palette).refresh
    (calls, .ok s)

/-- Opens a window and shows the background. -/
def start (scale : Value) (palette : Setting Text) (smoothing : Setting Int) :
    List Call × Except Error Screen :=
  match widthOf scale with
  | .error e => (displayCalls, .error e)
  | .ok width =>
    match paletteOf palette with
    | .error e => (displayCalls ++ modeCalls width, .error e)
    | .ok palette =>
      -- Smoothing is looked at last, when the background is there to be smoothed.
      let (calls, result) := present width palette smoothing
      (displayCalls ++ modeCalls width ++ calls, result)

/-- Closes the window. -/
def close (_ : Screen) : List Call := [.closeDisplay]

end Screen

end Chip8.Window
