import Chip8.Machine.Basic

/-!
# Chip8.Machine.Trace — the registers in one line

What a trace shows for an instruction: the registers from `VF` down to `V0`, the
index register, both timers, the address and the word of the instruction, and
the text of the instruction. A dump also shows the open calls.
-/

namespace Chip8.Machine

/-- The registers from `VF` down to `V0`, two digits each. -/
def registerText (m : Machine) : String :=
  Text.byteText m.v.toList.reverse

/-- One line with the registers and the text of an instruction. -/
def traceLine (m : Machine) (text : Text) : Text :=
  "V: 0x" ++ m.registerText ++ " I: 0x" ++ Text.hex 4 m.i ++ " DT: 0x" ++ Text.hex 2 m.delay ++
    " ST: 0x" ++ Text.hex 2 m.sound ++ " PC: 0x" ++ Text.hex 3 m.opcodeAt ++
    " OP: 0x" ++ Text.hex 4 m.opcode ++ " IN: " ++ text

/-- The open calls, the oldest first. -/
def callText (calls : List Int) : String :=
  if calls.isEmpty then " (Empty)"
  else String.join (calls.map fun address => " 0x" ++ Text.hex 3 address)

/-- A trace line, followed by a line with the open calls. -/
def dump (m : Machine) (text : Text) : Text :=
  m.traceLine text ++ "\nStack:" ++ callText m.stack.calls

/-- The fault of a word that is no instruction. -/
def unsupported (m : Machine) : Fault :=
  .unsupported m.opcode m.opcodeAt (m.dump "???")

end Chip8.Machine
