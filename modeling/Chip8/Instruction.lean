/-!
# Chip8.Instruction — what a program word asks for

An instruction is a word of sixteen bits. `Instruction` lists what a word can
ask for, with its operands, and `Instruction.decode?` reads it off the word:

* The highest four bits choose the family; in the families `0`, `8`, `E` and
  `F` further bits choose the member.
* The operands stand in fixed places: a register in the second or third digit,
  a byte in the lower half, an address in the three lower digits.
* Bits that choose nothing are ignored: the last digit of `5XY_` and `9XY_`, and
  the second register of both shifts.

A word is given as a whole number of any size; bits above the sixteenth are
looked at only in the family `0`, whose members have to match exactly.
-/

namespace Chip8

/-- A register, `V0` to `VF`. -/
abbrev Register := Fin 16

/-- The register that holds carries and collisions. -/
def flagRegister : Register := 15

/-- The register that `BNNN` adds to its target. -/
def offsetRegister : Register := 0

/-- What a program word asks for. -/
inductive Instruction where
  | clear
  | ret
  | jump (target : Fin 4096)
  | call (target : Fin 4096)
  | skipEqByte (x : Register) (byte : UInt8)
  | skipNeByte (x : Register) (byte : UInt8)
  | skipEq (x y : Register)
  | skipNe (x y : Register)
  | loadByte (x : Register) (byte : UInt8)
  | addByte (x : Register) (byte : UInt8)
  | load (x y : Register)
  | or (x y : Register)
  | and (x y : Register)
  | xor (x y : Register)
  | add (x y : Register)
  | sub (x y : Register)
  | shiftRight (x : Register)
  | subFrom (x y : Register)
  | shiftLeft (x : Register)
  | loadIndex (target : Fin 4096)
  | jumpFrom (target : Fin 4096)
  | random (x : Register) (byte : UInt8)
  | draw (x y : Register) (height : Fin 16)
  | skipHeld (x : Register)
  | skipNotHeld (x : Register)
  | readDelay (x : Register)
  | waitKey (x : Register)
  | setDelay (x : Register)
  | setSound (x : Register)
  | addIndex (x : Register)
  | loadGlyph (x : Register)
  | storeDecimal (x : Register)
  | storeRegisters (x : Register)
  | loadRegisters (x : Register)
deriving DecidableEq, Repr

namespace Instruction

/-! ## Fields of a word -/

/-- The digit of `word` in the place that has the given weight. -/
def digitAt (word weight : Int) : Fin 16 :=
  Fin.ofNat 16 (word / weight % 16).toNat

/-- The register named by the second digit. -/
def fieldX (word : Int) : Register := digitAt word 0x100

/-- The register named by the third digit. -/
def fieldY (word : Int) : Register := digitAt word 0x10

/-- The last digit. -/
def fieldNibble (word : Int) : Fin 16 := digitAt word 0x1

/-- The lower half. -/
def fieldByte (word : Int) : UInt8 := UInt8.ofNat (word % 0x100).toNat

/-- The three lower digits. -/
def fieldAddress (word : Int) : Fin 4096 := Fin.ofNat 4096 (word % 0x1000).toNat

/-! ## Decoding -/

/-- The member of the family `8` that the last digit chooses. -/
def arithmetic? (x y : Register) : Nat → Option Instruction
  | 0x0 => some (.load x y)
  | 0x1 => some (.or x y)
  | 0x2 => some (.and x y)
  | 0x3 => some (.xor x y)
  | 0x4 => some (.add x y)
  | 0x5 => some (.sub x y)
  | 0x6 => some (.shiftRight x)
  | 0x7 => some (.subFrom x y)
  | 0xE => some (.shiftLeft x)
  | _ => none

/-- The member of the family `E` that the lower half chooses. -/
def keyTest? (x : Register) : Nat → Option Instruction
  | 0x9E => some (.skipHeld x)
  | 0xA1 => some (.skipNotHeld x)
  | _ => none

/-- The member of the family `F` that the lower half chooses. -/
def transfer? (x : Register) : Nat → Option Instruction
  | 0x07 => some (.readDelay x)
  | 0x0A => some (.waitKey x)
  | 0x15 => some (.setDelay x)
  | 0x18 => some (.setSound x)
  | 0x1E => some (.addIndex x)
  | 0x29 => some (.loadGlyph x)
  | 0x33 => some (.storeDecimal x)
  | 0x55 => some (.storeRegisters x)
  | 0x65 => some (.loadRegisters x)
  | _ => none

/-- The instruction that a word asks for, if it is one. -/
def decode? (word : Int) : Option Instruction :=
  let x := fieldX word
  let y := fieldY word
  let byte := fieldByte word
  let address := fieldAddress word
  match (digitAt word 0x1000).val with
  | 0x0 => if word = 0x00E0 then some .clear else if word = 0x00EE then some .ret else none
  | 0x1 => some (.jump address)
  | 0x2 => some (.call address)
  | 0x3 => some (.skipEqByte x byte)
  | 0x4 => some (.skipNeByte x byte)
  | 0x5 => some (.skipEq x y)
  | 0x6 => some (.loadByte x byte)
  | 0x7 => some (.addByte x byte)
  | 0x8 => arithmetic? x y (fieldNibble word).val
  | 0x9 => some (.skipNe x y)
  | 0xA => some (.loadIndex address)
  | 0xB => some (.jumpFrom address)
  | 0xC => some (.random x byte)
  | 0xD => some (.draw x y (fieldNibble word))
  | 0xE => keyTest? x byte.toNat
  | _ => transfer? x byte.toNat

example : decode? 0x00EE = some .ret := by decide
example : decode? 0x10EE = some (.jump 0x0EE) := by decide
example : decode? 0x5AB7 = some (.skipEq 0xA 0xB) := by decide
example : decode? 0x8AB6 = some (.shiftRight 0xA) := by decide
example : decode? 0x8AB8 = none ∧ decode? 0x0000 = none := by decide
example : decode? 0x100E0 = none ∧ decode? 0x1F165 = some (.loadRegisters 1) := by decide

end Instruction

end Chip8
