import Chip8.CommandLine.Switch
import Chip8.Text.DecimalDigit

/-!
# Chip8.CommandLine.Argument — what an argument is

Whether an argument is a switch is decided for each on its own, before any of
them takes effect:

* Two dashes alone are a divider; whatever follows is plain.
* A switch may be spelled in full, or by the start of its long spelling where no
  other switch starts alike. A value may be attached with an equals sign, or
  directly to the short spelling.
* What starts with a dash but is no switch is plain if it is a negative number or
  holds a space, and otherwise unknown.
-/

namespace Chip8.CommandLine

/-- An argument. -/
inductive Argument where
  | divider
  | plain (text : Text)
  /-- A switch in its short spelling (`short`) or its long one, with what is
  attached to it. -/
  | switch (switch : Switch) (short : Bool) (attached : Option Text)
  | unknown (text : Text)
deriving DecidableEq, Repr

/-- An argument that several switches could be meant by. -/
structure Ambiguous where
  text : Text
  candidates : List Text
deriving DecidableEq, Repr

namespace Argument

/-- Whether every code point is a decimal digit. -/
def allDigits (text : Text) : Bool :=
  text.all fun p => (p.char?.bind Text.decimalDigit?).isSome

/-- Drops one line feed at the end. -/
def dropLineFeed (text : Text) : Text :=
  if text.getLast? = some (.char '\n') then text.dropLast else text

/-- Whether a text is a dash and a number, with a fraction or without. One line
feed may follow it. -/
def isNegativeNumber : Text → Bool
  | .char '-' :: body =>
    let body := dropLineFeed body
    let whole := body.takeWhile (· != .char '.')
    match body.dropWhile (· != .char '.') with
    | [] => !whole.isEmpty && allDigits whole
    | _ :: fraction => allDigits whole && !fraction.isEmpty && allDigits fraction
  | _ => false

/-- Splits a text at its first equals sign. -/
def splitEquals (text : Text) : Text × Option Text :=
  match text.dropWhile (· != .char '=') with
  | [] => (text, none)
  | _ :: value => (text.takeWhile (· != .char '='), some value)

/-- A spelling is short if it has one dash. -/
def isShort (spelling : Text) : Bool := spelling[1]? != some (.char '-')

/-- A switch, spelled in full, with a value or without one. -/
def spelled? (spelling : Text) (attached : Option Text) : Option Argument :=
  (Switch.ofSpelling? spelling).map fun s => .switch s (isShort spelling) attached

/-- The switches that a text with two dashes may abbreviate. -/
def abbreviated (text : Text) : List (Text × Argument) :=
  let (start, value) := splitEquals text
  (Switch.table.filter fun entry => start.isPrefixOf entry.1).map fun entry =>
    (entry.1, .switch entry.2 false value)

/-- The switch that a text with one dash starts with, the rest being attached. -/
def joined (text : Text) : List (Text × Argument) :=
  let spelling := text.take 2
  match Switch.ofSpelling? spelling with
  | some s => [(spelling, .switch s true (some (text.drop 2)))]
  | none => []

/-- What a text is that starts with a dash and spells no switch in full. -/
def incomplete (text : Text) : Except Ambiguous Argument :=
  match if isShort text then joined text else abbreviated text with
  | [(_, argument)] => .ok argument
  | [] =>
    if isNegativeNumber text || text.contains (.char ' ') then .ok (.plain text)
    else .ok (.unknown text)
  | candidates => .error ⟨text, candidates.map (·.1)⟩

/-- What an argument in front of the divider is. -/
def classify (text : Text) : Except Ambiguous Argument :=
  match text with
  | .char '-' :: rest =>
    match spelled? text none with
    | some argument => .ok argument
    | none =>
      if rest.isEmpty then .ok (.plain text)
      else
        match splitEquals text with
        | (spelling, some value) =>
          match spelled? spelling (some value) with
          | some argument => .ok argument
          | none => incomplete text
        | (_, none) => incomplete text
  | _ => .ok (.plain text)

/-- What all arguments are. -/
def classifyAll : List Text → Except Ambiguous (List Argument)
  | [] => .ok []
  | text :: rest =>
    if text = "--" then .ok (.divider :: rest.map .plain)
    else do
      let argument ← classify text
      let arguments ← classifyAll rest
      return argument :: arguments

end Argument

end Chip8.CommandLine
