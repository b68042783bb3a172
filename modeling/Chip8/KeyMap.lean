import Chip8.Keypad
import Chip8.Text.Basic
import Chip8.Text.Numeral

/-!
# Chip8.KeyMap — which key of the host is which key of the keypad

A key map gives each key of the keypad its own host key code. It is written as
sixteen whole numbers with commas between them, key `0` first.

* `KeyMap.parse` reads one. Where the host reports characters and not keys,
  capital letters are folded to small ones first.
* `KeyMap.key?` finds the key of a code. No code belongs to two keys.
-/

namespace Chip8

/-- Sixteen different host key codes. -/
structure KeyMap where
  /-- The code of each key, key `0` first. -/
  codes : Vector Int 16
  distinct : codes.toList.Nodup

namespace KeyMap

/-! ## Letters -/

/-- Why a number has no small form: it is no character code. -/
inductive FoldError where
  | negative (code : Int)
  /-- The code does not even fit into 32 bits. -/
  | farNegative (code : Int)
deriving DecidableEq, Repr

/-- The report of a number that is no character code. -/
def FoldError.message : FoldError → String
  | negative code | farNegative code => toString code ++ " is not a character"

/-- Turns the code of a capital Latin letter into that of the small one. -/
def smallLetter (code : Int) : Int :=
  if 65 ≤ code ∧ code ≤ 90 then code + 32 else code

/-- The code of a character as a key map sees it: capitals and small letters
are the same key. A negative number is no character. -/
def fold (code : Int) : Except FoldError Int :=
  if 0 ≤ code then .ok (smallLetter code)
  else if -0x80000000 ≤ code then .error (.negative code)
  else .error (.farNegative code)

/-! ## Reading a key map -/

/-- Why a text is no key map. -/
inductive ParseError where
  | wrongCount
  | notNumbers
  | duplicate
  | noLetter (cause : FoldError)
deriving DecidableEq, Repr

/-- The report of a text that is no key map. -/
def ParseError.message : ParseError → String
  | wrongCount =>
    "Incorrect number of keys defined -- 16 required.  Use commas to split numbers"
  | notNumbers => "Defined keys are not all integer values"
  | duplicate => "Duplicate keys defined"
  | noLetter cause => cause.message

/-- The key map with the listed codes, key `0` first. -/
def ofCodes (codes : List Int) : Except ParseError KeyMap :=
  if hlen : codes.length = 16 then
    if hnodup : codes.Nodup then
      .ok ⟨⟨codes.toArray, by simpa using hlen⟩, by simpa [Vector.toList] using hnodup⟩
    else .error .duplicate
  else .error .wrongCount

/-- Folds every code, or reports the first that cannot be folded. -/
def foldAll (codes : List Int) : Except ParseError (List Int) :=
  match codes.mapM fold with
  | .ok folded => .ok folded
  | .error cause => .error (.noLetter cause)

/-- Reads a key map, folding letters where asked to. -/
def parse (text : Text) (folding : Bool) : Except ParseError KeyMap :=
  let fields := text.splitOn (.char ',')
  if fields.length = 16 then
    match fields.mapM fun field => (Text.chars? field).bind Text.decimal? with
    | none => .error .notNumbers
    | some codes =>
      if folding then foldAll codes >>= ofCodes else ofCodes codes
  else .error .wrongCount

/-- The key that a host key code belongs to. -/
def key? (m : KeyMap) (code : Int) : Option Key :=
  m.codes.findFinIdx? (· == code)

/-- The key map that is used unless another is given. It puts the keypad on the
left four columns of a keyboard. -/
def defaultText : String := "120,49,50,51,113,119,101,97,115,100,122,99,52,114,102,118"

end KeyMap

end Chip8
