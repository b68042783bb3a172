import Chip8.Instruction
import Chip8.Text.Hexadecimal

/-!
# Chip8.Instruction.Mnemonic — how an instruction is written

The assembler text of an instruction, as the trace shows it. Registers are one
digit, bytes two and addresses three, all in lower case.
-/

namespace Chip8.Instruction

/-- The name of a register. -/
def registerName (x : Register) : String := "V" ++ Text.hex 1 x.val

/-- A byte operand. -/
def byteOperand (byte : UInt8) : String := "0x" ++ Text.hex 2 byte.toNat

/-- An address operand. -/
def addressOperand (address : Fin 4096) : String := "0x" ++ Text.hex 3 address.val

/-- Two operands. -/
def operands (a b : String) : String := a ++ ", " ++ b

/-- The assembler text of an instruction. -/
def mnemonic : Instruction → String
  | clear => "CLS"
  | ret => "RET"
  | jump target => "JP " ++ addressOperand target
  | call target => "CALL " ++ addressOperand target
  | skipEqByte x byte => "SE " ++ operands (registerName x) (byteOperand byte)
  | skipNeByte x byte => "SNE " ++ operands (registerName x) (byteOperand byte)
  | skipEq x y => "SE " ++ operands (registerName x) (registerName y)
  | skipNe x y => "SNE " ++ operands (registerName x) (registerName y)
  | loadByte x byte => "LD " ++ operands (registerName x) (byteOperand byte)
  | addByte x byte => "ADD " ++ operands (registerName x) (byteOperand byte)
  | load x y => "LD " ++ operands (registerName x) (registerName y)
  | or x y => "OR " ++ operands (registerName x) (registerName y)
  | and x y => "AND " ++ operands (registerName x) (registerName y)
  | xor x y => "XOR " ++ operands (registerName x) (registerName y)
  | add x y => "ADD " ++ operands (registerName x) (registerName y)
  | sub x y => "SUB " ++ operands (registerName x) (registerName y)
  | shiftRight x => "SHR " ++ registerName x
  | subFrom x y => "SUBN " ++ operands (registerName x) (registerName y)
  | shiftLeft x => "SHL " ++ registerName x
  | loadIndex target => "LD " ++ operands "I" (addressOperand target)
  | jumpFrom target => "JP " ++ operands "V0" (addressOperand target)
  | random x byte => "RND " ++ operands (registerName x) (byteOperand byte)
  | draw x y height =>
    "DRW " ++ operands (registerName x) (operands (registerName y) ("0x" ++ Text.hex 1 height.val))
  | skipHeld x => "SKP " ++ registerName x
  | skipNotHeld x => "SKNP " ++ registerName x
  | readDelay x => "LD " ++ operands (registerName x) "DT"
  | waitKey x => "LD " ++ operands (registerName x) "K"
  | setDelay x => "LD " ++ operands "DT" (registerName x)
  | setSound x => "LD " ++ operands "ST" (registerName x)
  | addIndex x => "ADD " ++ operands "I" (registerName x)
  | loadGlyph x => "LD " ++ operands "F" (registerName x)
  | storeDecimal x => "LD " ++ operands "B" (registerName x)
  | storeRegisters x => "LD " ++ operands "[I]" (registerName x)
  | loadRegisters x => "LD " ++ operands (registerName x) "[I]"

end Chip8.Instruction
