import Chip8.CallStack
import Chip8.Display
import Chip8.Font
import Chip8.Instruction
import Chip8.Keypad
import Chip8.Memory
import Chip8.RandomSource

/-!
# Chip8.Machine.Basic — the state of a machine

A machine owns its memory, its open calls, its picture, sixteen registers, an
index register, two timers and the state of the keys.

* `Machine.fresh` is a machine as it is built, `Machine.reset` brings one back
  to that state; only the random source and the count of beeps live on.
* `Machine.load` puts a program in its place, `Machine.setKeys` tells which
  keys are held.

The registers hold bytes. The other numbers are kept as whole numbers without
bounds, so that a tool may write any value into them; a running program keeps
all of them small.
-/

namespace Chip8

/-! ## The map of the memory -/

/-- How many bytes of memory a machine has. -/
def memorySize : Nat := 0x1000

/-- Where a program starts; what lies below is reserved. -/
def programStart : Nat := 0x200

/-- How many bytes a program may have. -/
def programRoom : Nat := memorySize - programStart

/-- Where the pictures of the digits lie. -/
def fontStart : Nat := 0x050

/-- How many calls may be open at once. -/
def maxCalls : Nat := 16

/-- How many pixels a row of the picture has. -/
def displayWidth : Nat := 64

/-- How many rows the picture has. -/
def displayHeight : Nat := 32

/-- Memory as a machine starts with: zeros, and the pictures of the digits. -/
def freshMemory : Memory :=
  ⟨Array.replicate fontStart 0 ++ Font.glyphs ++
    Array.replicate (memorySize - fontStart - Font.glyphs.size) 0⟩

/-- Memory after it was wiped and the pictures of the digits were stored again. Where
they have no place, only zeros are left. -/
def wipedMemory (memory : Memory) : Memory :=
  match memory.clear.writeBlock fontStart Font.glyphs with
  | .ok memory => memory
  | .error _ => memory.clear

/-! ## The state -/

/-- A machine between two instructions, or in the middle of one that faulted. -/
structure Machine where
  memory : Memory
  stack : CallStack Int
  display : Display
  /-- The registers `V0` to `VF`. -/
  v : Vector UInt8 16
  /-- The index register. -/
  i : Int
  /-- The address of the next instruction. -/
  pc : Int
  /-- The delay timer. -/
  delay : Int
  /-- The sound timer. -/
  sound : Int
  keys : Keypad
  /-- The word of the instruction in progress, or of the last one. -/
  opcode : Int
  /-- The address that word was fetched from. -/
  opcodeAt : Int
  random : RandomSource
  /-- How many beeps the sound timer has asked for since the machine was built. -/
  beeps : Nat

namespace Machine

/-- A machine as it is built. -/
def fresh (random : RandomSource) : Machine where
  memory := freshMemory
  stack := .empty maxCalls
  display := .blank displayWidth displayHeight
  v := Vector.replicate 16 0
  i := 0
  pc := programStart
  delay := 0
  sound := 0
  keys := .released
  opcode := 0
  opcodeAt := programStart
  random := random
  beeps := 0

/-- Brings a machine back to the state it was built in, part by part. Random
numbers that were drawn stay drawn, and beeps that sounded stay counted. -/
def reset (m : Machine) : Machine :=
  { m with
    memory := wipedMemory m.memory
    stack := m.stack.clear
    display := m.display.reset
    v := Vector.replicate 16 0
    i := 0
    pc := programStart
    delay := 0
    sound := 0
    keys := .released
    opcode := 0
    opcodeAt := programStart }

/-! ## Loading a program -/

/-- Why a program cannot be loaded. -/
inductive LoadError where
  /-- The program has `size` bytes, more than there is room for. -/
  | tooLarge (size : Nat)
  /-- The machine's memory is too small to hold the program. -/
  | noPlace (fault : Fault)
deriving DecidableEq, Repr

/-- The report of a program that cannot be loaded. -/
def LoadError.message : LoadError → Text
  | tooLarge size =>
    "Program is " ++ toString size ++ " bytes, but only " ++ toString programRoom ++
      " bytes are available from 0x" ++ Text.hex 3 programStart
  | noPlace fault => fault.message

/-- Puts a program where programs start. Nothing else is touched. -/
def load (m : Machine) (program : Array UInt8) : Except LoadError Machine :=
  if programRoom < program.size then .error (.tooLarge program.size)
  else
    match m.memory.writeBlock programStart program with
    | .error fault => .error (.noPlace fault)
    | .ok memory => .ok { m with memory := memory }

/-! ## Keys, registers and the program counter -/

/-- Tells which keys are held. -/
def hold (m : Machine) (keys : Keypad) : Machine := { m with keys := keys }

/-- Tells which keys are held, key `0` first. The list has to speak of each key
once. -/
def setKeys (m : Machine) (states : List Bool) : Except Keypad.CountError Machine :=
  (Keypad.ofList states).map m.hold

/-- Takes the mark off a picture that has been shown. -/
def settleDisplay (m : Machine) : Machine :=
  { m with display := m.display.settle }

/-- The content of a register. -/
def reg (m : Machine) (x : Register) : UInt8 := m.v[x]

/-- Sets a register. -/
def setReg (m : Machine) (x : Register) (byte : UInt8) : Machine :=
  { m with v := m.v.set x byte x.isLt }

/-- Sets a register to a number that has to be a byte. -/
def putReg (m : Machine) (x : Register) (value : Int) : Except Fault Machine :=
  if 0 ≤ value ∧ value ≤ 0xFF then .ok (m.setReg x (UInt8.ofInt value))
  else .error (.notAByte value)

/-- Sets the flag register. -/
def setFlag (m : Machine) (byte : UInt8) : Machine := m.setReg flagRegister byte

/-- Moves on to the next instruction. -/
def advance (m : Machine) : Machine :=
  { m with pc := (m.pc + 2) % 0x10000 }

/-- Moves on to the next instruction, or past it. -/
def skipIf (m : Machine) (condition : Bool) : Machine :=
  if condition then m.advance.advance else m.advance

end Machine

end Chip8
