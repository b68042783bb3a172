import Chip8.Text.Basic
import Chip8.Text.Hexadecimal
import Chip8.Text.Numeral
import Chip8.Window.Call

/-!
# Chip8.Window.Palette — the two colours of the picture

A palette is a background and a foreground colour. It is written as one or two
fields with a comma between them, the background first; each field is six
characters that denote a number in base 16, with red, green and blue in its
three bytes. A colour that is not given keeps its default.
-/

namespace Chip8.Window

/-- The colours of unlit and of lit pixels. -/
structure Palette where
  background : Colour
  foreground : Colour
deriving DecidableEq, Repr

namespace Palette

/-- Why a text is no palette. -/
inductive ParseError where
  | tooMany
  | wrongLength
  | notHexadecimal
  /-- The number has no three bytes. -/
  | outOfRange (code : Int)
deriving DecidableEq, Repr

/-- The report of a text that is no palette. -/
def ParseError.message : ParseError → String
  | tooMany => "Too many palette colours defined."
  | wrongLength => "Palette colours must all be 6 hex digits long."
  | notHexadecimal => "Invalid palette colour defined."
  | outOfRange code => "The number " ++ toString code ++ " is no colour"

/-- The number of the background colour unless another is given. -/
def defaultBackground : Int := 0x222222

/-- The number of the foreground colour unless another is given. -/
def defaultForeground : Int := 0xDDDDDD

/-- The colour with a number. -/
def colour (code : Int) : Except ParseError Colour :=
  if 0 ≤ code ∧ code ≤ 0xFFFFFF then
    .ok ⟨UInt8.ofInt (code / 0x10000), UInt8.ofInt (code / 0x100), UInt8.ofInt code⟩
  else .error (.outOfRange code)

/-- The number that a field denotes. -/
def fieldCode (field : Text) : Except ParseError Int :=
  if field.length = 6 then
    match (Text.chars? field).bind Text.hexadecimal? with
    | some code => .ok code
    | none => .error .notHexadecimal
  else .error .wrongLength

/-- The palette with the listed numbers, the background first. All fields are
read before the first number is turned into a colour. -/
def ofCodes (codes : List Int) : Except ParseError Palette := do
  let background ← colour (codes.getD 0 defaultBackground)
  let foreground ← colour (codes.getD 1 defaultForeground)
  return ⟨background, foreground⟩

/-- Reads a palette. -/
def parse (text : Text) : Except ParseError Palette := do
  let fields := text.splitOn (.char ',')
  if 2 < fields.length then
    throw .tooMany
  let codes ← fields.mapM fieldCode
  ofCodes codes

/-- The palette that an option asks for. -/
def ofOption : Option Text → Except ParseError Palette
  | none => ofCodes []
  | some text => parse text

/-- The colour of a pixel that is unlit (`0`) or lit (`1`). -/
def of? (p : Palette) (pixel : UInt8) : Option Colour :=
  if pixel = 0 then some p.background else if pixel = 1 then some p.foreground else none

end Palette

end Chip8.Window
