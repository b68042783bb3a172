import Chip8.Banner
import Chip8.Text.Basic
import Chip8.Text.Hexadecimal

/-!
# Chip8.Fault — why an instruction cannot be carried out

A running program stops on the first instruction that asks for something that
does not exist: an address outside memory, a call too many, a return without a
call, a seventeenth key, or a word that is no instruction. `Fault` names the
cause with its data, and `Fault.message` words it.
-/

namespace Chip8

/-- The cause that ends a program. -/
inductive Fault where
  /-- An access at `address`, in a memory whose highest address is `top`. -/
  | outsideMemory (address top : Int)
  /-- A call when `limit` calls are open already. -/
  | stackOverflow (limit : Int)
  /-- A return when no call is open. -/
  | stackUnderflow
  /-- A test of a key that the keypad does not have. -/
  | noSuchKey (key : UInt8)
  /-- A register cannot take `value`, which is not a byte. -/
  | notAByte (value : Int)
  /-- The word `opcode` at `address` is no instruction; `dump` shows the
  registers and the calls that are open. -/
  | unsupported (opcode address : Int) (dump : Text)
deriving DecidableEq, Repr

namespace Fault

/-- The report of a fault. -/
def message : Fault → Text
  | outsideMemory address top =>
    "Memory access at 0x" ++ Text.hex 4 address ++ " is outside 0x000-0x" ++ Text.hex 3 top
  | stackOverflow limit => "Stack overflow (more than " ++ toString limit ++ " nested calls)"
  | stackUnderflow => "Stack underflow (return without a call)"
  | noSuchKey key => "Key 0x" ++ Text.hex 2 key.toNat ++ " does not exist on the keypad"
  | notAByte value => "The value " ++ toString value ++ " does not fit into a register"
  | unsupported opcode address dump =>
    "Emulation halted.\n\n" ++ Banner.intro ++ "Trace:\n" ++ dump ++ "\n\nOpcode 0x" ++
      Text.hex 4 opcode ++ " at address 0x" ++ Text.hex 3 address ++
      " is not a CHIP-8 instruction."

end Fault

end Chip8
