import Chip8.Text.Basic

/-!
# Chip8.FileName — the bytes of a name

Systems name files by bytes. A character has those of its usual encoding, and
some halves of characters stand for one byte each, so that every row of bytes has
a name. The other halves have no bytes, and a name that holds one names nothing:

* `FileName.bytes` gives the bytes of a name.
* `FileName.stray?` finds the halves in a name that have no bytes.
-/

namespace Chip8.FileName

/-- Whether a code point is a half without a byte. Halves that stand for a byte
have the number of that byte added to `0xDC00`, and the byte is no character by
itself. -/
def isStray : CodePoint → Bool
  | .char _ => false
  | p => p.number < 0xDC80 || 0xDCFF < p.number

/-- The bytes of a code point. -/
def codePointBytes : CodePoint → List UInt8
  | .char c => String.utf8EncodeChar c
  | p => [UInt8.ofNat p.number]

/-- The bytes of a name. -/
def bytes (name : Text) : List UInt8 := name.flatMap codePointBytes

/-- Halves in a name that have no bytes. -/
structure Stray where
  /-- The first of them. -/
  half : CodePoint
  /-- Where the first of them stands, counted from zero. -/
  first : Nat
  /-- Where the last half stands that follows it without a gap. -/
  last : Nat
deriving DecidableEq, Repr

/-- The report of halves that have no bytes. -/
def Stray.message (s : Stray) : String :=
  "There are no bytes for what stands at the places " ++ toString s.first ++ " to " ++
    toString s.last ++ " of the name"

/-- The first halves in a name that have no bytes. -/
def stray? (name : Text) : Option Stray :=
  let before := name.takeWhile (!isStray ·)
  let run := (name.drop before.length).takeWhile (·.char?.isNone)
  run.head?.map fun half => ⟨half, before.length, before.length + run.length - 1⟩

end Chip8.FileName
