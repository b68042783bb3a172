/-!
# Chip8.Text.Basic — texts

A text is a row of code points. Most code points are characters. The others are
set aside for the halves of wide characters; they mean nothing when they stand
alone, but texts that come from outside may hold them all the same, so a text is
more than a string.

* `Text.ofString` makes a text of a string, which is how literals become texts.
* `Text.chars?` gives the characters of a text without halves.
* `CodePoint.ofNumber` and `CodePoint.number` lead from and to code numbers.
-/

namespace Chip8

/-- A character, or a half of one that stands alone. -/
inductive CodePoint where
  | char (c : Char)
  /-- The halves are numbered from zero. -/
  | half (index : Fin 0x800)
deriving DecidableEq, Repr

namespace CodePoint

/-- The code number of the first half. -/
def firstHalf : Nat := 0xD800

/-- The code number of a code point. -/
def number : CodePoint → Nat
  | char c => c.toNat
  | half index => firstHalf + index

/-- The code point with a code number. -/
def ofNumber (n : Nat) : CodePoint :=
  if h : firstHalf ≤ n ∧ n < firstHalf + 0x800 then
    half ⟨n - firstHalf, Nat.sub_lt_left_of_lt_add h.1 h.2⟩
  else char (Char.ofNat n)

/-- The character that a code point is. -/
def char? : CodePoint → Option Char
  | char c => some c
  | half _ => none

end CodePoint

/-- A row of code points. -/
abbrev Text := List CodePoint

namespace Text

/-- The text of a string. -/
def ofString (s : String) : Text := s.toList.map .char

instance : Coe String Text := ⟨ofString⟩

/-- The characters of a text that has no halves. -/
def chars? (t : Text) : Option (List Char) := t.mapM CodePoint.char?

/-- Characters make a text, and are the characters of it. -/
theorem chars?_map_char (cs : List Char) : chars? (cs.map .char) = some cs := by
  induction cs with
  | nil => rfl
  | cons c rest ih =>
    unfold chars? at ih
    simp [chars?, CodePoint.char?, ih]

/-- A text as a string, in which a mark replaces each half. -/
def asString (t : Text) : String := String.ofList (t.map fun p => p.char?.getD '\ufffd')

/-- Texts, one after the other, with `between` between them. -/
def joined (between : Text) (texts : List Text) : Text := between.intercalate texts

end Text

end Chip8
