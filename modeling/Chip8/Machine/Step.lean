import Chip8.Instruction.Mnemonic
import Chip8.Machine.Exec

/-!
# Chip8.Machine.Step — running a program

* `Machine.fetch` reads the word at the program counter.
* `Machine.execute` carries out the word in progress, or faults if it is no
  instruction.
* `Machine.tick` counts both timers down and asks for a beep while the sound
  timer runs.
* `Machine.step` is one turn: fetch, execute, tick. A turn that faults does not
  tick.
* `Machine.run` is a number of turns, up to the first that faults.

Tracing looks on: `executeLine?`, `stepLine?` and `runLines` give the lines that
a live trace prints, from the state before, and change nothing.
-/

namespace Chip8.Machine

/-- The word at the program counter, its first byte the higher one. -/
def fetch (m : Machine) : Except Fault Int := do
  let bytes ← m.memory.readBlock m.pc 2
  return 0x100 * (bytes.getD 0 0).toNat + (bytes.getD 1 0).toNat

/-- Carries out the word in progress. -/
def execute (m : Machine) : Progress :=
  match Instruction.decode? m.opcode with
  | none => m.halt m.unsupported
  | some instruction => m.exec instruction

/-- Counts the sound timer down, with a beep for each count. -/
def tickSound (m : Machine) : Machine :=
  if 0 < m.sound then { m with sound := m.sound - 1, beeps := m.beeps + 1 } else m

/-- Counts the delay timer down. -/
def tickDelay (m : Machine) : Machine :=
  if 0 < m.delay then { m with delay := m.delay - 1 } else m

/-- Counts both timers down. -/
def tick (m : Machine) : Machine := m.tickSound.tickDelay

/-- The machine with the word that stands at its program counter in progress. -/
def latch (m : Machine) : Progress :=
  -- The address is noted before the fetch, so it is also that of a word that is not
  -- fetched.
  let m := { m with opcodeAt := m.pc }
  match m.fetch with
  | .error fault => m.halt fault
  | .ok word => { m with opcode := word }.finish

/-- One turn: fetches a word, carries it out and counts the timers down. -/
def step (m : Machine) : Progress :=
  match m.latch with
  | ⟨m, some fault⟩ => m.halt fault
  | ⟨m, none⟩ =>
    match m.execute with
    | ⟨m, some fault⟩ => m.halt fault
    -- The timers count completed turns only.
    | ⟨m, none⟩ => m.tick.finish

/-- So many turns, up to the first that faults. -/
def run (m : Machine) : Nat → Progress
  | 0 => m.finish
  | n + 1 =>
    match m.step with
    | ⟨m, some fault⟩ => m.halt fault
    | ⟨m, none⟩ => m.run n

/-! ## Tracing -/

/-- The line that a live trace prints before the word in progress is carried
out. There is none for a word that is no instruction. -/
def executeLine? (m : Machine) : Option Text :=
  (Instruction.decode? m.opcode).map fun instruction => m.traceLine instruction.mnemonic

/-- The line that a live trace prints in the next turn. There is none if the
fetch faults. -/
def stepLine? (m : Machine) : Option Text :=
  match m.latch with
  | ⟨_, some _⟩ => none
  | ⟨m, none⟩ => m.executeLine?

/-- The lines that a live trace prints in so many turns. -/
def runLines (m : Machine) : Nat → List Text
  | 0 => []
  | n + 1 =>
    m.stepLine?.toList ++
      match m.step with
      | ⟨_, some _⟩ => []
      | ⟨m, none⟩ => m.runLines n

end Chip8.Machine
