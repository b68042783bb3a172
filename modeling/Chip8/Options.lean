import Chip8.KeyMap
import Chip8.ProgramFile
import Chip8.Setting
import Chip8.Time

/-!
# Chip8.Options — what a run can be told

Nine options govern a run. Each is a setting, which is looked at where it is
needed: most may be left to the front end or the pacer by setting them to nothing,
and a value of a wrong kind is reported there. The scale is any value, as each front
end looks at it in its own way.
-/

namespace Chip8

/-- The ways to show the picture, take keys and sound the buzzer. -/
inductive FrontEndKind where
  | window
  | terminal
  | headless
deriving DecidableEq, Repr

/-- The options of a run. -/
structure Options (τ : Type) where
  /-- The file that holds the program. -/
  filename : Setting ProgramFile.Source
  /-- Turns in a second; zero or less sets no limit. -/
  clockSpeed : Setting (Rate τ)
  /-- The front end; a window is tried first if none is named, then a terminal. -/
  frontEnd : Setting FrontEndKind
  /-- The width of the window, or of a pixel on a terminal. -/
  scale : Value
  /-- How often the image in a window is smoothed. -/
  smoothing : Setting Int
  mute : Setting Bool
  keymap : Setting Text
  palette : Setting Text
  /-- Whether every instruction is printed. -/
  trace : Setting Bool

namespace Options

/-- The options of a run that is only told its program. -/
def default {τ : Type} (filename : Text) : Options τ where
  filename := .value (.named filename)
  clockSpeed := .unset
  frontEnd := .unset
  scale := .nothing
  smoothing := .value 0
  mute := .unset
  keymap := .value KeyMap.defaultText
  palette := .unset
  trace := .value false

end Options

/-- The names of the options. -/
inductive OptionName where
  | filename | clockSpeed | frontEnd | scale | smoothing | mute | keymap | palette | trace
deriving DecidableEq, Repr

/-- All options. -/
def OptionName.all : List OptionName :=
  [filename, clockSpeed, frontEnd, scale, smoothing, mute, keymap, palette, trace]

/-- How an option is spelled. -/
def OptionName.label : OptionName → String
  | filename => "filename"
  | clockSpeed => "clock_speed"
  | frontEnd => "renderer"
  | scale => "scale"
  | smoothing => "smoothing"
  | mute => "mute"
  | keymap => "keymap"
  | palette => "pygame_palette"
  | trace => "trace"

/-- An option that is set to a value of a wrong kind. -/
structure WrongKind where
  option : OptionName
  kind : ValueKind
deriving DecidableEq, Repr

/-- The report of a value of a wrong kind. -/
def WrongKind.message (e : WrongKind) : String :=
  "The option '" ++ e.option.label ++ "' cannot be " ++ e.kind.label

/-! ## Front ends by name -/

/-- How a front end is spelled. -/
def FrontEndKind.label : FrontEndKind → String
  | window => "pygame"
  | terminal => "curses"
  | headless => "null"

/-- The front end with a spelling. -/
def FrontEndKind.ofLabel? (text : Text) : Option FrontEndKind :=
  [window, terminal, headless].find? (·.label == text)

/-! ## Options by name -/

/-- The rate that a value counts as. -/
def Value.rate? (v : Value) : Option (Rate Float) :=
  match v with
  | fraction x => some (.measured x)
  | _ => v.whole?.map .whole

/-- The wish that a value counts as. Nothing is no wish. -/
def Value.wish? (v : Value) : Option Bool :=
  if v.kind = .nothing then none else some v.holds

/-- The options that values give. -/
def Options.ofValues (value : OptionName → Value) : Options Float where
  filename := .ofValue ProgramFile.Source.ofValue? (value .filename)
  clockSpeed := .ofValue Value.rate? (value .clockSpeed)
  frontEnd := .ofValue (·.text?.bind FrontEndKind.ofLabel?) (value .frontEnd)
  scale := value .scale
  smoothing := .ofValue Value.whole? (value .smoothing)
  mute := .ofValue Value.wish? (value .mute)
  keymap := .ofValue Value.text? (value .keymap)
  palette := .ofValue Value.text? (value .palette)
  trace := .ofValue Value.wish? (value .trace)

end Chip8
