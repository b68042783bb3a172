import Chip8.Proofs.Machine.Operation
import Chip8.Proofs.Machine.Turn

/-!
# Chip8.Proofs.Machine.Invariant — every machine that is reached is bounded

No operation leads out of the bounds, whether it is accepted, refused or cut
short. So the bounds hold of every machine that operations lead to.

With the bounds the counter is never cut back: a completed step leads where the
plain sums of `following` say, and a machine whose counter has left memory stays
where it is until it is reset.
-/

namespace Chip8.Machine

open Display (mem_frame)

variable {m : Machine}

/-! ## Operations keep the bounds -/

/-- A program that is not too large is laid over memory where programs start. -/
theorem load_of_fits (hsize : m.memory.size = memorySize) {program : Array UInt8}
    (h : program.size ≤ programRoom) :
    m.load program = .ok { m with memory := m.memory.storing programStart program.toList } := by
  have hfits : program.size ≠ 0 →
      m.memory.Holds programStart ∧ m.memory.Holds ((programStart : Nat) + program.size - 1) := by
    -- The first byte is where programs start, and the last one is in memory by the size.
    simp only [Memory.holds_iff, programStart, programRoom, memorySize] at hsize h ⊢
    omega
  simp only [load, if_neg (Nat.not_lt.mpr h), Memory.writeBlock_eq_ok hfits]

/-- A program that is too large is refused, and its size is told. -/
theorem load_of_too_large {program : Array UInt8} (h : programRoom < program.size) :
    m.load program = .error (.tooLarge program.size) := by
  rw [load, if_pos h]

/-- A program that fits is accepted. -/
theorem perform_load_of_fits (hm : m.Bounded) {program : Array UInt8}
    (h : program.size ≤ programRoom) :
    m.perform (.load program) =
      ({ m with memory := m.memory.storing programStart program.toList }, none) := by
  simp only [Machine.perform, load_of_fits hm.memory h]

/-- A program that is refused changes nothing. -/
theorem perform_load_of_too_large {program : Array UInt8} (h : programRoom < program.size)
    (m : Machine) : m.perform (.load program) = (m, some (.load (.tooLarge program.size))) := by
  simp only [Machine.perform, load_of_too_large h]

/-- A program that was loaded is found where programs start. -/
theorem byteAt_load (hm : m.Bounded) {program : Array UInt8} (h : program.size ≤ programRoom)
    {k : Nat} (hk : k < program.size) :
    (m.perform (.load program)).1.memory.byteAt (programStart + k) = program[k] := by
  have hsize := hm.memory_size
  -- The place of a byte of the program is one of memory, behind the start.
  have hholds : m.memory.Holds (programStart + k) := by
    simp only [Memory.holds_iff, programStart, programRoom, memorySize] at h ⊢
    omega
  have hle : (programStart : Int) ≤ programStart + k := by omega
  have hplace : ((programStart : Int) + k - programStart).toNat = k := by omega
  simp only [perform_load_of_fits hm h, Memory.byteAt_storing _ hholds, if_pos hle, hplace]
  simp [hk]

/-- The memory of a new machine is zeros with the pictures of the digits stored in it. -/
theorem freshMemory_eq :
    freshMemory = (Memory.zeroed memorySize).storing fontStart Font.glyphs.toList := by
  have hroom : fontStart + Font.glyphs.size ≤ (Memory.zeroed memorySize).size := by
    rw [Memory.size_zeroed]
    decide
  have hextract (i j : Nat) : (Memory.zeroed memorySize).bytes.extract i j =
      Array.replicate (min j memorySize - i) 0 := Array.extract_replicate
  have hbefore : min fontStart memorySize - 0 = fontStart := by decide
  have hbehind : min memorySize memorySize - (fontStart + Font.glyphs.size) =
      memorySize - fontStart - Font.glyphs.size := by decide
  -- The zeros around the digits are what is left of a row of zeros.
  have hsplice := (Memory.zeroed memorySize).splice_eq_storing fontStart Font.glyphs hroom
  rw [hextract, hextract, Memory.size_zeroed, hbefore, hbehind] at hsplice
  rw [freshMemory, hsplice]

/-- A bank of the right size is wiped to what a new machine has. -/
theorem wipedMemory_eq {memory : Memory} (h : memory.size = memorySize) :
    wipedMemory memory = freshMemory := by
  have hclear : memory.clear = Memory.zeroed memorySize := by
    rw [Memory.clear, h]
  have hholds : (Memory.zeroed memorySize).Holds fontStart ∧
      (Memory.zeroed memorySize).Holds ((fontStart : Nat) + Font.glyphs.size - 1) := by
    rw [Memory.holds_iff, Memory.holds_iff, Memory.size_zeroed]
    decide
  have hstore : (Memory.zeroed memorySize).writeBlock fontStart Font.glyphs =
      .ok ((Memory.zeroed memorySize).storing fontStart Font.glyphs.toList) :=
    Memory.writeBlock_eq_ok fun _ => hholds
  simp only [wipedMemory, hclear, hstore, freshMemory_eq]

/-- A reset brings every part back to what a new machine has. -/
theorem Bounded.reset_eq (hm : m.Bounded) :
    m.reset = { Machine.fresh m.random with beeps := m.beeps } := by
  have hmemory : wipedMemory m.memory = freshMemory := wipedMemory_eq hm.memory
  have hstack : m.stack.clear = .empty maxCalls := congrArg CallStack.empty hm.limit
  have hdisplay : m.display.reset = .blank displayWidth displayHeight := by
    -- A reset picture has as many pixels as before, all of them unlit.
    have hpixels : ((displayWidth : Int) * displayHeight).toNat = 2048 := by decide
    rw [Display.blank, hpixels, ← hm.display.area]
    simp only [Display.reset, Display.unlit, hm.display.width, hm.display.height]
    rfl
  unfold Machine.reset
  rw [hmemory, hstack, hdisplay, Machine.fresh]

theorem Bounded.reset (hm : m.Bounded) : m.reset.Bounded := by
  rw [hm.reset_eq]
  exact (Bounded.fresh m.random).setBeeps m.beeps

/-- An operation keeps the bounds, whether it is refused or not. -/
theorem Bounded.perform (hm : m.Bounded) (operation : Operation) :
    (m.perform operation).1.Bounded := by
  cases operation with
  | reset => exact hm.reset
  | load program =>
    -- A refused program leaves the machine as it is, and an accepted one the size of memory.
    rcases Nat.lt_or_ge programRoom program.size with h | h
    · rw [perform_load_of_too_large h]
      exact hm
    · rw [perform_load_of_fits hm h]
      exact hm.setMemory (Memory.size_storing _)
  | setKeys states =>
    cases states with
    | none => exact hm
    | some states =>
      -- States for another number of keys are refused.
      cases h : Keypad.ofList states with
      | error e =>
        rw [perform_setKeys_of_error h]
        exact hm
      | ok keys =>
        rw [perform_setKeys_of_ok h]
        exact { hm with }
  | settle => exact hm.setDisplay hm.display.settle
  | step => exact hm.step

/-- The bounds hold of every machine that operations lead to. -/
theorem Reachable.bounded (h : m.Reachable) : m.Bounded := by
  -- By induction on the operations, from a new machine.
  induction h with
  | fresh random => exact Bounded.fresh random
  | perform operation _ ih => exact ih.perform operation

/-! ## New machines with a program -/

/-- A new machine with a program. -/
def programmed (program : Array UInt8) : Machine :=
  ((fresh (.ofList [])).perform (.load program)).1

theorem reachable_programmed (program : Array UInt8) : (programmed program).Reachable :=
  (Reachable.fresh _).perform _

/-- The words of a loaded program are found where programs start. -/
theorem wordAt_programmed {program : Array UInt8} (h : program.size ≤ programRoom) {k : Nat}
    {high low : UInt8} (hhigh : program[k]? = some high) (hlow : program[k + 1]? = some low) :
    (programmed program).wordAt (programStart + k) = 0x100 * (high.toNat : Int) + low.toNat := by
  have hm := Bounded.fresh (.ofList [])
  obtain ⟨hk, rfl⟩ := Array.getElem?_eq_some_iff.mp hhigh
  obtain ⟨hnext, rfl⟩ := Array.getElem?_eq_some_iff.mp hlow
  have haddress : (programStart : Int) + k + 1 = programStart + (k + 1 : Nat) := by omega
  rw [wordAt, haddress, programmed, byteAt_load hm h hk, byteAt_load hm h hnext]

/-- A new machine with a program, as an update of a new machine. -/
theorem programmed_eq {program : Array UInt8} (h : program.size ≤ programRoom) :
    programmed program =
      { fresh (.ofList []) with memory := freshMemory.storing programStart program.toList } := by
  rw [programmed, perform_load_of_fits (Bounded.fresh _) h]
  rfl

/-! ## Pictures and the counter -/

theorem Bounded.size_frame (hm : m.Bounded) : m.display.frame.size = 2048 :=
  m.display.size_frame.trans hm.display.area

/-- A step that is completed leads to the address that follows. -/
theorem Bounded.step_pc_of_completed (hm : m.Bounded) (h : m.step.fault = none) :
    ∃ i : Instruction, i.EncodedBy (m.wordAt m.pc) ∧ m.step.machine.pc = m.following i := by
  obtain ⟨i, hpc, hi, hfits⟩ := hm.fits_of_completed h
  refine ⟨i, hi, ?_⟩
  rw [step_of_fits hm hpc hi hfits]
  show (m.latched.exec i).machine.tick.pc = m.following i
  rw [tick_pc, exec_pc hm.latched hpc (mt overreaches_latched.mp hfits)]
  cases i <;> rfl

/-- But for a reset and a step, an operation changes at most memory, the keys and the mark
on the picture. -/
theorem Bounded.perform_outside (hm : m.Bounded) {operation : Operation}
    (hreset : operation ≠ .reset) (hstep : operation ≠ .step) :
    ∃ memory keys changed, (m.perform operation).1 =
      { m with
        memory := memory
        keys := keys
        display := { m.display with changed := changed } } := by
  cases operation with
  | reset => exact absurd rfl hreset
  | step => exact absurd rfl hstep
  | load program =>
    rcases Nat.lt_or_ge programRoom program.size with h | h
    · rw [perform_load_of_too_large h]
      exact ⟨m.memory, m.keys, m.display.changed, rfl⟩
    · rw [perform_load_of_fits hm h]
      exact ⟨_, m.keys, m.display.changed, rfl⟩
  | setKeys states =>
    cases states with
    | none => exact ⟨m.memory, m.keys, m.display.changed, rfl⟩
    | some states =>
      cases h : Keypad.ofList states with
      | error e =>
        rw [perform_setKeys_of_error h]
        exact ⟨m.memory, m.keys, m.display.changed, rfl⟩
      | ok keys =>
        rw [perform_setKeys_of_ok h]
        exact ⟨m.memory, keys, m.display.changed, rfl⟩
  | settle => exact ⟨m.memory, m.keys, false, rfl⟩

/-- Beyond memory nothing but a reset moves the counter. -/
theorem Bounded.perform_pc_of_beyond (hm : m.Bounded) (hpc : 0xFFE < m.pc) {operation : Operation}
    (h : operation ≠ .reset) : (m.perform operation).1.pc = m.pc := by
  by_cases hstep : operation = .step
  · rw [hstep, perform_step, step_of_beyond hm hpc]
    rfl
  · obtain ⟨memory, keys, changed, hleft⟩ := hm.perform_outside h hstep
    rw [hleft]

/-- Beyond memory the counter stays where it is, whatever is done without a reset. -/
theorem Bounded.performAll_pc_of_beyond (hm : m.Bounded) (hpc : 0xFFE < m.pc)
    {operations : List Operation} (h : .reset ∉ operations) :
    (m.performAll operations).pc = m.pc := by
  -- By induction on the operations, with the counter still beyond memory.
  induction operations generalizing m with
  | nil => rfl
  | cons operation rest ih =>
    obtain ⟨hfirst, hrest⟩ := not_or.mp (mt List.mem_cons.mpr h)
    have hstays := hm.perform_pc_of_beyond hpc (Ne.symm hfirst)
    show ((m.perform operation).1.performAll rest).pc = m.pc
    rw [ih (hm.perform operation) (hstays ▸ hpc) hrest, hstays]

/-! ## All runs -/

/-- What holds after any operations on a new machine:

* the sixteen registers, the keys, memory, the picture and all the numbers are
  within their bounds;
* a step that is completed leads to a plain sum, which is never cut back, and one
  that faults stays where it is;
* a program that has run off the end of memory stays there until a reset. -/
theorem bounded_of_operations (random : RandomSource) (operations : List Operation) :
    let m := (Machine.fresh random).performAll operations
    m.Bounded ∧
      (m.v.toList.length = 16 ∧ ∀ x, (m.reg x).toNat ≤ 0xFF) ∧
      m.keys.toList.length = 16 ∧
      (m.display.frame.size = 2048 ∧ ∀ byte ∈ m.display.frame, byte = 0 ∨ byte = 1) ∧
      (m.step.fault = none →
        ∃ i : Instruction, i.EncodedBy (m.wordAt m.pc) ∧ m.step.machine.pc = m.following i) ∧
      (m.step.fault ≠ none → m.step.machine.pc = m.pc) ∧
      (0xFFE < m.pc → ∀ later, .reset ∉ later → (m.performAll later).pc = m.pc) := by
  intro m
  have hm : m.Bounded := ((Reachable.fresh random).performAll operations).bounded
  refine ⟨hm, ⟨m.v.length_toList, fun x => ?_⟩, m.keys.length_toList,
    ⟨hm.size_frame, fun byte => mem_frame⟩, hm.step_pc_of_completed, ?_, ?_⟩
  · -- A register is a byte by its type.
    exact Nat.le_of_lt_succ (m.reg x).toNat_lt
  · intro hfault
    exact (hm.step_unmoved hfault).pc
  · intro hpc later hlater
    exact hm.performAll_pc_of_beyond hpc hlater

end Chip8.Machine
