import Chip8.Proofs.Instruction.Encoding
import Chip8.Proofs.Machine.Operation

/-!
# Chip8.Proofs.Machine.Tracing — tracing looks on and changes nothing

`Machine.stepLine?` gives the line of a live trace from the state before a step. A tracer
sits in the middle of the step: it prints once the word is fetched and before it is carried
out. `Traced` is a machine with such a tracer.

`Traced.step_eq` says that both come to the same: the tracer prints the line that
`stepLine?` gives, and the machine takes the step that it takes without a tracer. So a
tracer adds its lines to a run and nothing else (`Traced.performAll_eq`), and a machine that
traces live and one that does not go through the same states.
-/

namespace Chip8

open Machine (Operation Refusal)

/-! ## Machines that are traced -/

/-- A machine with a tracer. -/
structure Traced where
  machine : Machine
  /-- Whether every instruction is printed. -/
  live : Bool
  /-- The lines that were printed, the oldest first. -/
  printed : List Text

namespace Traced

/-- A machine as it is built, with a tracer that is live or not. -/
def built (live : Bool) (random : RandomSource) : Traced := ⟨Machine.fresh random, live, []⟩

/-- Prints the line of an instruction from the state as it is, if the tracer is live. -/
def trace (t : Traced) (text : Text) : Traced :=
  if t.live then { t with printed := t.printed ++ [t.machine.traceLine text] } else t

/-- Carries out the word in progress, after it was traced. -/
def execute (t : Traced) : Traced × Option Fault :=
  match Instruction.decode? t.machine.opcode with
  | none => (t, some t.machine.unsupported)
  | some i =>
    let t := t.trace i.mnemonic
    let ⟨machine, fault⟩ := t.machine.exec i
    ({ t with machine := machine }, fault)

/-- One turn: fetches a word, traces it, carries it out and counts the timers down. -/
def step (t : Traced) : Traced × Option Fault :=
  match t.machine.latch with
  | ⟨machine, some fault⟩ => ({ t with machine := machine }, some fault)
  | ⟨machine, none⟩ =>
    match execute { t with machine := machine } with
    | (t, some fault) => (t, some fault)
    | (t, none) => ({ t with machine := t.machine.tick }, none)

/-- What an operation leaves, and why it was refused, if it was. -/
def perform (t : Traced) : Operation → Traced × Option Refusal
  | .step => (t.step.1, t.step.2.map .fault)
  | operation =>
    let (machine, refusal) := t.machine.perform operation
    ({ t with machine := machine }, refusal)

/-- What a row of operations leaves. -/
def performAll (t : Traced) (operations : List Operation) : Traced :=
  operations.foldl (fun t operation => (t.perform operation).1) t

/-! ## One operation -/

/-- A line is added if the tracer is live, and else nothing is. -/
theorem trace_eq (t : Traced) (text : Text) :
    t.trace text =
      { t with
        printed := t.printed ++ if t.live then [t.machine.traceLine text] else [] } := by
  unfold trace
  split
  · rfl
  · rw [List.append_nil]

/-- A word is carried out as without a tracer, and its line is printed before. -/
theorem execute_eq (t : Traced) :
    t.execute =
      ({ t with
          machine := t.machine.execute.machine
          printed := t.printed ++ if t.live then t.machine.executeLine?.toList else [] },
        t.machine.execute.fault) := by
  unfold execute Machine.execute Machine.executeLine?
  cases Instruction.decode? t.machine.opcode with
  -- A word that is no instruction has no line.
  | none =>
    have hnone : (if t.live then ([] : List Text) else []) = [] := ite_self []
    simp only [Option.map_none, Option.toList_none, hnone, List.append_nil]
    rfl
  | some i =>
    simp only [trace_eq]
    rfl

/-- The lines that a live tracer prints in an operation. -/
def linesOf (m : Machine) : Operation → List Text
  | .step => m.stepLine?.toList
  | _ => []

/-- A step prints its line, if the tracer is live, and is the step of the machine. -/
theorem step_eq (t : Traced) :
    t.step =
      ({ t with
          machine := t.machine.step.machine
          printed := t.printed ++ if t.live then linesOf t.machine .step else [] },
        t.machine.step.fault) := by
  unfold step linesOf Machine.step Machine.stepLine?
  rcases t.machine.latch with ⟨latched, _ | fault⟩
  · simp only [execute_eq]
    rcases latched.execute with ⟨left, _ | fault⟩ <;> rfl
  · -- After a failed fetch there is no line.
    have hnone : (if t.live then ([] : List Text) else []) = [] := ite_self []
    simp only [Option.toList_none, hnone, List.append_nil]
    rfl

/-- Only a step prints anything, and every operation is that of the machine. -/
theorem perform_eq (t : Traced) (operation : Operation) :
    t.perform operation =
      ({ t with
          machine := (t.machine.perform operation).1
          printed := t.printed ++ if t.live then linesOf t.machine operation else [] },
        (t.machine.perform operation).2) := by
  cases operation with
  | step =>
    simp only [perform, step_eq]
    rfl
  | _ => simp only [perform, linesOf, ite_self, List.append_nil]

/-! ## Runs -/

/-- The lines that a live tracer prints in a row of operations. -/
def linesIn (m : Machine) : List Operation → List Text
  | [] => []
  | operation :: rest => linesOf m operation ++ linesIn (m.perform operation).1 rest

/-- A tracer adds its lines to a run and takes nothing from it. -/
theorem performAll_eq (t : Traced) (operations : List Operation) :
    t.performAll operations =
      { t with
        machine := t.machine.performAll operations
        printed := t.printed ++ if t.live then linesIn t.machine operations else [] } := by
  -- By induction on the operations, with what was printed before set aside.
  induction operations generalizing t with
  | nil =>
    simp only [linesIn, ite_self, List.append_nil]
    rfl
  | cons operation rest ih =>
    show (t.perform operation).1.performAll rest = _
    rw [ih, perform_eq]
    simp only [linesIn]
    cases t.live with
    | false =>
      simp only [Bool.false_eq_true, if_false, List.append_nil]
      rfl
    | true =>
      simp only [if_true, List.append_assoc]
      rfl

end Traced

/-! ## The line of a step -/

namespace Machine

variable {m : Machine} {word : Int} {i : Instruction}

/-- A word that was fetched is one of 16 bits. -/
theorem fetch_bounds (h : m.fetch = .ok word) : 0 ≤ word ∧ word ≤ 0xFFFF := by
  unfold fetch at h
  cases hread : m.memory.readBlock m.pc 2 with
  | error fault =>
    rw [hread] at h
    cases h
  | ok bytes =>
    rw [hread] at h
    cases h
    -- The word is made of two bytes.
    have := (bytes.getD 0 0).toNat_lt
    have := (bytes.getD 1 0).toNat_lt
    omega

/-- The line of an instruction that is about to be carried out: the state before the step,
the address and the word that stands there, and the text of the instruction. -/
def lineBefore (m : Machine) (word : Int) (i : Instruction) : Text :=
  "V: 0x" ++ m.registerText ++ " I: 0x" ++ Text.hex 4 m.i ++ " DT: 0x" ++ Text.hex 2 m.delay ++
    " ST: 0x" ++ Text.hex 2 m.sound ++ " PC: 0x" ++ Text.hex 3 m.pc ++
    " OP: 0x" ++ Text.hex 4 word ++ " IN: " ++ i.mnemonic

/-- The line of a step shows the state before it, and the word that it fetches. -/
theorem stepLine?_of_encodedBy (hfetch : m.fetch = .ok word) (hi : i.EncodedBy word) :
    m.stepLine? = some (m.lineBefore word i) := by
  -- The address of the word in progress is set first, and the fetch does not look at it.
  have hfetched : { m with opcodeAt := m.pc }.fetch = .ok word := hfetch
  have hdecoded : Instruction.decode? word = some i := Instruction.decode?_of_encodedBy hi
  simp only [stepLine?, latch, hfetched, finish, executeLine?, hdecoded, Option.map_some]
  rfl

/-- A step that fetches no instruction has no line. -/
theorem stepLine?_eq_none
    (h : ∀ word, m.fetch = .ok word → ¬ ∃ i : Instruction, i.EncodedBy word) :
    m.stepLine? = none := by
  cases hfetch : m.fetch with
  -- The word could not be fetched, or it is not one that is decoded.
  | error fault =>
    have hfetched : { m with opcodeAt := m.pc }.fetch = .error fault := hfetch
    simp only [stepLine?, latch, hfetched, halt]
  | ok word =>
    have hfetched : { m with opcodeAt := m.pc }.fetch = .ok word := hfetch
    obtain ⟨h0, h1⟩ := fetch_bounds hfetch
    have hdecoded : Instruction.decode? word = none :=
      (Instruction.decode?_eq_none_iff h0 h1).mpr (h word hfetch)
    simp only [stepLine?, latch, hfetched, finish, executeLine?, hdecoded, Option.map_none]

end Machine

namespace Traced

/-! ## All runs -/

/-- Tracing is transparent. After any operations on a new machine, a live tracer and one
that is not leave the same machine, which is the one without a tracer, and the next
operation is refused or cut short for the same reason. The second tracer prints nothing.
The first prints nothing but the line of each step, and that is

* one line if the step fetches an instruction, also if it faults then. The line shows the
  registers, the index and the timers from before the step, the address that the word was
  fetched from, the word, and the text of the instruction;
* none if the step fetches nothing, or no instruction. -/
theorem tracing_is_transparent (random : RandomSource) (operations : List Operation) :
    let live := (built true random).performAll operations
    let quiet := (built false random).performAll operations
    let m := (Machine.fresh random).performAll operations
    live.machine = m ∧ quiet.machine = m ∧ quiet.printed = [] ∧
      (∀ operation,
        (live.perform operation).2 = (m.perform operation).2 ∧
          (quiet.perform operation).2 = (m.perform operation).2) ∧
      (∀ operation, operation ≠ .step → (live.perform operation).1.printed = live.printed) ∧
      (live.perform .step).1.printed = live.printed ++ m.stepLine?.toList ∧
      (∀ word, ∀ i : Instruction, m.fetch = .ok word → i.EncodedBy word →
        m.stepLine? = some (m.lineBefore word i)) ∧
      ((∀ word, m.fetch = .ok word → ¬ ∃ i : Instruction, i.EncodedBy word) →
        m.stepLine? = none) := by
  intro live quiet m
  -- Both tracers go through the same run, and only what they print tells them apart.
  have hlive : live = ⟨m, true, linesIn (Machine.fresh random) operations⟩ :=
    performAll_eq (built true random) operations
  have hquiet : quiet = ⟨m, false, []⟩ := performAll_eq (built false random) operations
  rw [hlive, hquiet]
  refine ⟨rfl, rfl, rfl, ?_, ?_, ?_, ?_, ?_⟩
  · intro operation
    rw [perform_eq, perform_eq]
    exact ⟨rfl, rfl⟩
  · intro operation hother
    rw [perform_eq]
    cases operation with
    | step => exact absurd rfl hother
    | _ => exact List.append_nil _
  · rw [perform_eq]
    rfl
  · intro word i hfetch hi
    exact Machine.stepLine?_of_encodedBy hfetch hi
  · exact Machine.stepLine?_eq_none

end Traced

end Chip8
