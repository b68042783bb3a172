import Chip8.Options

/-!
# Chip8.CommandLine.Switch — the switches of the command line

A switch starts with a dash. All but one have a short spelling of one letter and
a long one; two of them stand alone, the others take a value.
-/

namespace Chip8.CommandLine

/-- What can be switched. -/
inductive Switch where
  | help
  | option (name : OptionName)
deriving DecidableEq, Repr

namespace Switch

/-- The spellings of a switch, the short one first. The name of the program has
no switch. -/
def spellings : Switch → List String
  | help => ["-h", "--help"]
  | option .filename => []
  | option .clockSpeed => ["-c", "--clock_speed"]
  | option .frontEnd => ["-r", "--renderer"]
  | option .scale => ["-s", "--scale"]
  | option .smoothing => ["-f", "--smoothing"]
  | option .mute => ["-m", "--mute"]
  | option .keymap => ["-k", "--keymap"]
  | option .palette => ["--pygame_palette"]
  | option .trace => ["-t", "--trace"]

/-- All switches, in the order in which they are listed. -/
def all : List Switch :=
  help :: [.clockSpeed, .frontEnd, .scale, .smoothing, .mute, .keymap, .palette, .trace].map option

/-- All spellings with their switches, in the order in which they are listed. -/
def table : List (String × Switch) :=
  all.flatMap fun s => s.spellings.map (·, s)

/-- The switch with a spelling. -/
def ofSpelling? (text : Text) : Option Switch :=
  (table.find? (·.1 == text)).map (·.2)

/-- Whether a switch takes a value. -/
def takesValue : Switch → Bool
  | help | option .trace => false
  | _ => true

/-- All spellings of a switch, as a message names it. -/
def label (s : Switch) : String := "/".intercalate s.spellings

end Switch

end Chip8.CommandLine
