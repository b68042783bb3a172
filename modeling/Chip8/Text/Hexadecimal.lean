/-!
# Chip8.Text.Hexadecimal — hexadecimal numbers of a least width

Every report of the machine prints numbers in lower-case hexadecimal, filled
up with zeros to a least width:

* `hexChars width n` — the characters of `n`, at least `width` of them. A sign
  stands in front and takes part in the width, as in `-001`.
* `hex` — the same as a string.
* `byteText` — a run of bytes, two digits each and nothing between them.

A number that needs more digits than the width is written in full, so no
digit is ever lost.
-/

namespace Chip8.Text

/-- The sign that is written in front of `n`: only negative numbers have one. -/
def signChars (n : Int) : List Char :=
  if n < 0 then ['-'] else []

/-- The characters of `n` in hexadecimal: its sign, then zeros up to `width`
characters, then its digits. -/
def hexChars (width : Nat) (n : Int) : List Char :=
  let sign := signChars n
  let digits := Nat.toDigits 16 n.natAbs
  sign ++ List.replicate (width - sign.length - digits.length) '0' ++ digits

/-- `n` in hexadecimal, filled up with zeros to at least `width` characters. -/
def hex (width : Nat) (n : Int) : String :=
  String.ofList (hexChars width n)

/-- Bytes in hexadecimal, two digits each. -/
def byteText (bytes : List UInt8) : String :=
  String.ofList (bytes.flatMap fun b => hexChars 2 b.toNat)

theorem toList_hex (width : Nat) (n : Int) : (hex width n).toList = hexChars width n := by
  simp [hex]

/-- A written number is never shorter than the width asked for. -/
theorem le_length_hexChars (width : Nat) (n : Int) : width ≤ (hexChars width n).length := by
  simp only [hexChars, List.length_append, List.length_replicate]
  omega

example : hexChars 4 0x1f = ['0', '0', '1', 'f'] := by decide
example : hexChars 4 (-1) = ['-', '0', '0', '1'] := by decide
example : hexChars 4 (-0x1000) = ['-', '1', '0', '0', '0'] := by decide
example : hexChars 3 0x11170 = ['1', '1', '1', '7', '0'] := by decide

end Chip8.Text
