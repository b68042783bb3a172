import Chip8.CommandLine.Argument
import Chip8.Text.Numeral
import Chip8.Text.Quoted

/-!
# Chip8.CommandLine.Parse — options from a command line

The arguments take effect from left to right. The first plain one names the
program; a switch that takes a value and has none attached takes the plain
argument after it. Short spellings of switches without a value may be joined
behind one dash, the last one being any.

The first thing that is wrong is reported. Arguments that nothing can be made of
are reported together at the end, after a missing name of the program.
-/

namespace Chip8.CommandLine

/-- Why a command line gives no options. -/
inductive Error where
  | ambiguous (cause : Ambiguous)
  /-- A value is attached to a switch that takes none. -/
  | ignoredValue (switch : Switch) (text : Text)
  | missingValue (switch : Switch)
  | notANumber (switch : Switch) (text : Text)
  /-- A value is none of those that a switch allows; all are given as shown. -/
  | badChoice (switch : Switch) (value : Text) (choices : List Text)
  | missingFilename
  | unrecognized (texts : List Text)
  /-- The user asks for an explanation of the options. -/
  | helpWanted
deriving DecidableEq, Repr

namespace Error

/-- The text of an error about a switch. -/
def about (switch : Switch) (text : Text) : Text :=
  "argument " ++ switch.label ++ ": " ++ text

/-- The text of an error. -/
def text : Error → Text
  | ambiguous cause =>
    "ambiguous option: " ++ cause.text ++ " could match " ++ Text.joined ", " cause.candidates
  | ignoredValue switch text => about switch ("ignored explicit argument " ++ Text.quoted text)
  | missingValue switch => about switch "expected one argument"
  | notANumber switch text => about switch ("invalid int value: " ++ Text.quoted text)
  | badChoice switch value choices =>
    about switch
      ("invalid choice: " ++ value ++ " (choose from " ++ Text.joined ", " choices ++ ")")
  | missingFilename => "the following arguments are required: filename"
  | unrecognized texts => "unrecognized arguments: " ++ Text.joined " " texts
  | helpWanted => "usage: runchip8 [options] filename"

/-- The report of an error. -/
def message (e : Error) : Text := "runchip8: error: " ++ e.text

end Error

/-! ## Values -/

variable {τ : Type}

/-- The whole number that a value denotes. -/
def number (switch : Switch) (text : Text) : Except Error Int :=
  match (Text.chars? text).bind Text.decimal? with
  | some n => .ok n
  | none => .error (.notANumber switch text)

/-- Whether the sound is muted: `0` or `1`. -/
def muteValue (switch : Switch) (text : Text) : Except Error Bool := do
  let n ← number switch text
  if n = 0 then return false
  if n = 1 then return true
  throw (.badChoice switch (toString n) ["0", "1"])

/-- The front end that a value names. -/
def frontEndValue (switch : Switch) (text : Text) : Except Error FrontEndKind :=
  match FrontEndKind.ofLabel? text with
  | some kind => .ok kind
  | none =>
    .error (.badChoice switch (Text.quoted text)
      ([FrontEndKind.window, .terminal, .headless].map fun kind => Text.quoted kind.label))

/-- The setting that a text denotes, as `read` reads it. A text that is only the
divider is dropped, which leaves a list without members. -/
def settingOf {α : Type} (read : Text → Except Error α) (text : Text) :
    Except Error (Setting α) :=
  if text = "--" then .ok (.other .list) else (read text).map .value

/-- The scale that a text denotes, as `read` reads it. -/
def scaleOf (read : Text → Except Error Int) (text : Text) : Except Error Value :=
  if text = "--" then .ok (.list []) else (read text).map .whole

/-- Sets an option to what a text denotes. -/
def setOption (o : Options τ) (name : OptionName) (text : Text) :
    Except Error (Options τ) := do
  let switch := Switch.option name
  match name with
  | .filename => return { o with filename := .value (.named text) }
  | .clockSpeed =>
    return { o with clockSpeed := ← settingOf (fun text => (number switch text).map .whole) text }
  | .frontEnd => return { o with frontEnd := ← settingOf (frontEndValue switch) text }
  | .scale => return { o with scale := ← scaleOf (number switch) text }
  | .smoothing => return { o with smoothing := ← settingOf (number switch) text }
  | .mute => return { o with mute := ← settingOf (muteValue switch) text }
  | .keymap => return { o with keymap := ← settingOf .ok text }
  | .palette => return { o with palette := ← settingOf .ok text }
  | .trace => return { o with trace := .value true }

/-! ## Joined switches -/

/-- A switch that may have a value attached to it. -/
abbrev Valued := Switch × Option Text

/-- Takes joined switches apart: the switches that come before the last one, and
the last one with what is attached to it. Only short spellings can be joined to
one that takes no value. -/
def unjoin (switch : Switch) (short : Bool) : Text → Except Error (List Switch × Valued)
  | [] =>
    if switch.takesValue then .ok ([], switch, some []) else .error (.ignoredValue switch "")
  | letter :: rest =>
    if switch.takesValue then .ok ([], switch, some (letter :: rest))
    else
      match if short then Switch.ofSpelling? [.char '-', letter] else none with
      | none => .error (.ignoredValue switch (letter :: rest))
      | some next =>
        if rest.isEmpty then .ok ([switch], next, none)
        else do
          let (before, last) ← unjoin next true rest
          return (switch :: before, last)

/-! ## The command line -/

/-- How far a command line has been read. -/
structure Reading (τ : Type) where
  options : Options τ
  /-- Whether the program has been named. -/
  named : Bool
  /-- What nothing could be made of. -/
  extras : List Text

namespace Reading

/-- Names the program, or keeps what is too much. -/
def takePlain (r : Reading τ) (text : Text) : Reading τ :=
  if r.named then { r with extras := r.extras ++ [text] }
  else { r with options := { r.options with filename := .value (.named text) }, named := true }

/-- Lets a switch take effect, with the text of its value. -/
def take (r : Reading τ) (switch : Switch) (text : Text) : Except Error (Reading τ) :=
  match switch with
  | .help => .error .helpWanted
  | .option name => do return { r with options := ← setOption r.options name text }

/-- Lets switches without a value take effect. -/
def takeBare (r : Reading τ) (switches : List Switch) : Except Error (Reading τ) :=
  switches.foldlM (fun r switch => r.take switch "") r

/-- Keeps an argument that nothing could be made of. -/
def keep (r : Reading τ) (text : Text) : Reading τ :=
  { r with extras := r.extras ++ [text] }

/-- The text of the value of a switch: what is attached to it or, where nothing
is, the plain argument `next`. Says whether that argument is taken. -/
def valueText (switch : Switch) (attached : Option Text) (next : Option Text) :
    Except Error (Text × Bool) :=
  match attached with
  | some text => .ok (text, false)
  | none =>
    if switch.takesValue then
      match next with
      | some text => .ok (text, true)
      | none => .error (.missingValue switch)
    else .ok ("", false)

/-- Lets a switch take effect, together with those that are joined to it. The
argument `next` is the plain one behind it, if there is one. Returns whether that
argument has been taken. -/
def takeSwitch (r : Reading τ) (switch : Switch) (short : Bool) (attached : Option Text)
    (next : Option Text) : Except Error (Reading τ × Bool) := do
  let (before, last, attached) ←
    match attached with
    | none => pure ([], switch, none)
    | some text => unjoin switch short text
  let (text, taken) ← valueText last attached next
  -- The value is looked for before any of the joined switches takes effect.
  let r ← r.takeBare before
  return (← r.take last text, taken)

/-- Lets the arguments take effect, from left to right. A divider beside the
argument that names the program belongs to it; any other is too much. -/
def takeAll (r : Reading τ) : List Argument → Except Error (Reading τ)
  | [] => .ok r
  | [.plain text] => .ok (r.takePlain text)
  | [.divider] => .ok (r.keep "--")
  | .plain text :: next :: rest =>
    if !r.named && next = .divider then (r.takePlain text).takeAll rest
    else (r.takePlain text).takeAll (next :: rest)
  | .divider :: next :: rest =>
    match next with
    | .plain text =>
      if r.named then (r.keep "--").takeAll (next :: rest) else (r.takePlain text).takeAll rest
    | _ => (r.keep "--").takeAll (next :: rest)
  | .unknown text :: rest => (r.keep text).takeAll rest
  | [.switch switch short attached] =>
    (r.takeSwitch switch short attached none).map (·.1)
  | .switch switch short attached :: next :: rest => do
    -- Only a plain argument can be the value of a switch.
    let value :=
      match next with
      | .plain text => some text
      | _ => none
    let (r, taken) ← r.takeSwitch switch short attached value
    if taken then r.takeAll rest else r.takeAll (next :: rest)

end Reading

/-- The options that a command line gives, the name of the command not
included. -/
def parse (arguments : List Text) : Except Error (Options τ) := do
  let classified ←
    match Argument.classifyAll arguments with
    | .ok classified => pure classified
    | .error cause => throw (.ambiguous cause)
  let r ← (⟨.default "", false, []⟩ : Reading τ).takeAll classified
  -- A missing name is reported first, whatever else is left over.
  if !r.named then throw .missingFilename
  if !r.extras.isEmpty then throw (.unrecognized r.extras)
  return r.options

end Chip8.CommandLine
