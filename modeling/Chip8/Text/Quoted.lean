import Chip8.Text.Basic
import Chip8.Text.Hexadecimal
import Chip8.Text.Unprintable

/-!
# Chip8.Text.Quoted — texts in quotation marks

How a message shows a text that somebody typed: in single quotation marks, or
in double ones where the text has single marks but no double ones. The mark
itself and the backslash are written after a backslash, and a character
without a visible form as an escape, which a half of a character is too.
-/

namespace Chip8.Text

/-- The mark that encloses a text. -/
def quoteMark (text : Text) : Char :=
  if text.contains (.char '\'') && !text.contains (.char '"') then '"' else '\''

/-- A code number in two, four or eight hexadecimal digits, whichever is the
first to hold it. -/
def numberedEscape (code : Nat) : List Char :=
  if code ≤ 0xFF then '\\' :: 'x' :: hexChars 2 code
  else if code ≤ 0xFFFF then '\\' :: 'u' :: hexChars 4 code
  else '\\' :: 'U' :: hexChars 8 code

/-- The written form of a character between two marks. -/
def quotedChar (mark : Char) (c : Char) : List Char :=
  if c = mark || c = '\\' then ['\\', c]
  else if c = '\n' then ['\\', 'n']
  else if c = '\r' then ['\\', 'r']
  else if c = '\t' then ['\\', 't']
  else if isUnprintable c then numberedEscape c.toNat
  else [c]

/-- The written form of a code point between two marks. -/
def quotedCodePoint (mark : Char) (p : CodePoint) : List Char :=
  match p with
  | .char c => quotedChar mark c
  | .half _ => numberedEscape p.number

/-- `text` in quotation marks. -/
def quoted (text : Text) : Text :=
  let mark := quoteMark text
  (mark :: text.flatMap (quotedCodePoint mark) ++ [mark]).map .char

example : quoted "1.5" = "'1.5'" := by decide +kernel
example : quoted "it's" = "\"it's\"" := by decide +kernel
example : quoted "a\n\x01" = "'a\\n\\x01'" := by decide +kernel
example : quoted [.half 0x480] = "'\\udc80'" := by decide +kernel

end Chip8.Text
