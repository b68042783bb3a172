import Chip8.Text.Blank
import Chip8.Text.DecimalDigit

/-!
# Chip8.Text.Numeral — whole numbers as text

Reading a whole number from text:

* Blanks may stand on both sides, and one sign in front of the digits.
* A digit is a decimal digit of any script; base 16 also has the Latin letters
  `a` to `f` in either case.
* A single underscore may stand between two digits.
* A decimal number has at most `maxDecimalDigits` digits, leading zeros
  included. Base 16 has no such limit, and allows one `0x` or `0X` in front of
  the digits, which an underscore may follow.
-/

namespace Chip8.Text

/-- The most digits that a decimal number may be written with. -/
def maxDecimalDigits : Nat := 4300

/-- The value of a Latin letter as a hexadecimal digit. -/
def hexLetter? (c : Char) : Option Nat :=
  if 'a' ≤ c ∧ c ≤ 'f' then some (c.toNat - 87)
  else if 'A' ≤ c ∧ c ≤ 'F' then some (c.toNat - 55)
  else none

/-- The value of `c` as a digit: a decimal digit of any script or, where
`letters` says so, one of the letters `a` to `f`. -/
def digitValue? (letters : Bool) (c : Char) : Option Nat :=
  match decimalDigit? c with
  | some d => some d
  | none => if letters then hexLetter? c else none

/-- The values of a run of digits, in which a single underscore may stand
between two digits. The run has at least one digit. -/
def digitRun? (letters : Bool) : List Char → Option (List Nat)
  | [] => none
  | [c] => (digitValue? letters c).map ([·])
  | c :: '_' :: rest => do
    let d ← digitValue? letters c
    let ds ← digitRun? letters rest
    return d :: ds
  | c :: rest => do
    let d ← digitValue? letters c
    let ds ← digitRun? letters rest
    return d :: ds

/-- The number that digits denote, most significant first. -/
def numberOf (base : Nat) (digits : List Nat) : Nat :=
  digits.foldl (fun n d => base * n + d) 0

/-- Splits one sign off the front; a text without one is positive. -/
def splitSign : List Char → Bool × List Char
  | '+' :: rest => (false, rest)
  | '-' :: rest => (true, rest)
  | rest => (false, rest)

/-- Whether `c` is a zero of any script. -/
def isZero (c : Char) : Bool :=
  decimalDigit? c == some 0

/-- Drops the mark of base 16, a zero and an `x`, with the underscore that may
follow it. -/
def dropHexMark : List Char → List Char
  | z :: x :: rest =>
    if isZero z && (x == 'x' || x == 'X') then
      match rest with
      | '_' :: digits => digits
      | digits => digits
    else z :: x :: rest
  | rest => rest

/-- `n`, or its negative. -/
def signed (negative : Bool) (n : Nat) : Int :=
  if negative then -(n : Int) else n

/-- The whole number that a text writes in decimal, if it writes one. -/
def decimal? (text : List Char) : Option Int := do
  let (negative, body) := splitSign (trimBlanks text)
  let digits ← digitRun? false body
  if digits.length ≤ maxDecimalDigits then
    return signed negative (numberOf 10 digits)
  else none

/-- The whole number that a text writes in base 16, if it writes one. -/
def hexadecimal? (text : List Char) : Option Int := do
  let (negative, body) := splitSign (trimBlanks text)
  let digits ← digitRun? true (dropHexMark body)
  return signed negative (numberOf 16 digits)

example : decimal? " -1_000\n".toList = some (-1000) := by decide +kernel
example : decimal? "٥".toList = some 5 := by decide +kernel
example : decimal? "1__0".toList = none ∧ decimal? "_1".toList = none := by decide +kernel
example : decimal? "- 5".toList = none ∧ decimal? "".toList = none := by decide +kernel
example : hexadecimal? "0x_1F".toList = some 31 := by decide +kernel
example : hexadecimal? "0x".toList = none := by decide +kernel

end Chip8.Text
