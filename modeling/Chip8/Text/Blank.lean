/-!
# Chip8.Text.Blank — blank characters

The characters that may surround a written number: the 25 code points with the
Unicode property `White_Space`.
-/

namespace Chip8.Text

/-- The code points with the property `White_Space`. -/
def blankCodes : List Nat :=
  [0x09, 0x0A, 0x0B, 0x0C, 0x0D, 0x20, 0x85, 0xA0, 0x1680,
   0x2000, 0x2001, 0x2002, 0x2003, 0x2004, 0x2005, 0x2006, 0x2007, 0x2008, 0x2009, 0x200A,
   0x2028, 0x2029, 0x202F, 0x205F, 0x3000]

/-- Whether `c` is blank. -/
def isBlank (c : Char) : Bool :=
  blankCodes.contains c.toNat

/-- `cs` without the blanks at either end. -/
def trimBlanks (cs : List Char) : List Char :=
  ((cs.dropWhile isBlank).reverse.dropWhile isBlank).reverse

example : blankCodes.length = 25 := by decide
example : isBlank '\t' = true ∧ isBlank '\x1c' = false ∧ isBlank 'a' = false := by decide
example : trimBlanks [' ', '5', ' ', '6', '\n'] = ['5', ' ', '6'] := by decide

end Chip8.Text
