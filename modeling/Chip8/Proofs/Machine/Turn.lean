import Chip8.Machine.Step
import Chip8.Proofs.Instruction.Encoding
import Chip8.Proofs.Machine.Following

/-!
# Chip8.Proofs.Machine.Turn — the four ways that a step goes

A step of a bounded machine goes one of four ways, by where the counter stands and
by the word that stands there:

1. the counter stands beyond the last word of memory (`step_of_beyond`);
2. the word is no instruction (`step_of_unknown`);
3. the word is an instruction that overreaches (`step_of_overreaches`);
4. the word is an instruction that is completed (`step_of_fits`).

Only the last way counts the timers down. `Bounded.step` and the results about runs
follow from these four equations, and never open a step again.
-/

namespace Chip8.Machine

variable {m : Machine} {i : Instruction}

/-- The word at an address, its first byte the higher one. -/
def wordAt (m : Machine) (a : Int) : Int :=
  0x100 * (m.memory.byteAt a).toNat + (m.memory.byteAt (a + 1)).toNat

/-- The machine with the word at its counter in progress. -/
def latched (m : Machine) : Machine := { m with opcodeAt := m.pc, opcode := m.wordAt m.pc }

/-- A word is two bytes. -/
theorem wordAt_bounds (m : Machine) (a : Int) : 0 ≤ m.wordAt a ∧ m.wordAt a ≤ 0xFFFF := by
  have := (m.memory.byteAt a).toNat_lt
  have := (m.memory.byteAt (a + 1)).toNat_lt
  unfold wordAt
  omega

/-- The words of a machine are those of its memory. -/
theorem wordAt_congr {m m' : Machine} (h : m'.memory = m.memory) (a : Int) :
    m'.wordAt a = m.wordAt a := by
  rw [wordAt, wordAt, h]

/-- Neither the word in progress nor its address matters to what is missing. -/
theorem overreaches_latched : m.latched.Overreaches i ↔ m.Overreaches i := by
  cases i <;> exact Iff.rfl

theorem overreachFault_latched : m.latched.overreachFault i = m.overreachFault i := by
  cases i <;> rfl

/-- A machine with a word in progress is within the bounds. -/
theorem Bounded.latched (hm : m.Bounded) : m.latched.Bounded :=
  { hm with
    opcodeAt := hm.pc
    opcode := m.wordAt_bounds m.pc }

/-- Counting the timers down keeps the bounds. -/
theorem Bounded.tick (hm : m.Bounded) : m.tick.Bounded := by
  have hsound : m.tickSound.Bounded := by
    have := hm.sound
    unfold tickSound
    split
    · have hless : 0 ≤ m.sound - 1 ∧ m.sound - 1 ≤ 0xFF := by omega
      exact { hm with sound := hless }
    · exact hm
  have := hsound.delay
  unfold Machine.tick tickDelay
  split
  · exact hsound.setDelay ⟨by omega, by omega⟩
  · exact hsound

theorem tick_of_idle (hsound : m.sound = 0) (hdelay : m.delay = 0) : m.tick = m := by
  simp [tick, tickDelay, tickSound, hsound, hdelay]

theorem tick_pc (m : Machine) : m.tick.pc = m.pc := by
  unfold tick tickDelay tickSound
  split <;> split <;> rfl

/-! ## What a fault does not move -/

/-- Two machines that differ at most in memory, in registers, in pixels and in the
word in progress. -/
structure Unmoved (m m' : Machine) : Prop where
  pc : m'.pc = m.pc
  i : m'.i = m.i
  delay : m'.delay = m.delay
  sound : m'.sound = m.sound
  stack : m'.stack = m.stack
  keys : m'.keys = m.keys
  changed : m'.display.changed = m.display.changed
  beeps : m'.beeps = m.beeps
  random : m'.random = m.random

theorem Unmoved.refl (m : Machine) : m.Unmoved m := by
  constructor <;> rfl

/-- What two changes do not move, they do not move together. -/
theorem Unmoved.trans {m₁ m₂ m₃ : Machine} (h : m₁.Unmoved m₂) (h' : m₂.Unmoved m₃) :
    m₁.Unmoved m₃ where
  pc := h'.pc.trans h.pc
  i := h'.i.trans h.i
  delay := h'.delay.trans h.delay
  sound := h'.sound.trans h.sound
  stack := h'.stack.trans h.stack
  keys := h'.keys.trans h.keys
  changed := h'.changed.trans h.changed
  beeps := h'.beeps.trans h.beeps
  random := h'.random.trans h.random

theorem Unmoved.latched (m : Machine) : m.Unmoved m.latched := by
  constructor <;> rfl

theorem Unmoved.leftBy (m : Machine) (i : Instruction) : m.Unmoved (m.leftBy i) := by
  cases i <;> constructor <;> rfl

/-! ## The four ways -/

/-- Each step goes one of the four ways. -/
theorem turn_cases (m : Machine) :
    0xFFE < m.pc ∨
    (m.pc ≤ 0xFFE ∧ ¬ ∃ i : Instruction, i.EncodedBy (m.wordAt m.pc)) ∨
    (m.pc ≤ 0xFFE ∧ ∃ i : Instruction, i.EncodedBy (m.wordAt m.pc) ∧ m.Overreaches i) ∨
    (m.pc ≤ 0xFFE ∧ ∃ i : Instruction, i.EncodedBy (m.wordAt m.pc) ∧ ¬ m.Overreaches i) := by
  by_cases hpc : 0xFFE < m.pc
  · exact .inl hpc
  · have hle : m.pc ≤ 0xFFE := by omega
    by_cases hi : ∃ i : Instruction, i.EncodedBy (m.wordAt m.pc)
    · obtain ⟨i, hi⟩ := hi
      by_cases h : m.Overreaches i
      · exact .inr (.inr (.inl ⟨hle, i, hi, h⟩))
      · exact .inr (.inr (.inr ⟨hle, i, hi, h⟩))
    · exact .inr (.inl ⟨hle, hi⟩)

/-- A word that encodes an instruction is carried out as this instruction. -/
theorem execute_of_encodedBy (hi : i.EncodedBy (m.wordAt m.pc)) :
    m.latched.execute = m.latched.exec i := by
  -- A word encodes just one instruction, so it is the one that is decoded.
  have hsome : Instruction.decode? m.latched.opcode = some i := Instruction.decode?_of_encodedBy hi
  simp only [execute, hsome]

section

variable (hm : m.Bounded)
include hm

/-! ## Fetching -/

/-- Below the last word, both bytes of a word are in memory. -/
theorem holds_word (hpc : m.pc ≤ 0xFFE) : m.memory.Holds m.pc ∧ m.memory.Holds (m.pc + 1) := by
  have hsize := hm.memory_size
  have := hm.pc
  simp only [Memory.holds_iff]
  omega

/-- A word that lies in memory is fetched. -/
theorem latch_of_fetched (hpc : m.pc ≤ 0xFFE) : m.latch = m.latched.finish := by
  obtain ⟨hfirst, hlast⟩ := holds_word hm hpc
  -- The block of two bytes ends at the second one.
  have hcount : m.pc + 1 = m.pc + 2 - 1 := by omega
  rw [hcount] at hlast
  have hbyte {k : Nat} (hk : k < 2) :
      (m.memory.bytes.extract m.pc.toNat (m.pc + 2).toNat).getD k 0 = m.memory.byteAt (m.pc + k) :=
    Memory.getD_extract (n := 2) hm.pc.1 hk
  simp only [latch, fetch, Memory.readBlock_eq_ok hfirst hlast]
  show ({ m with opcodeAt := m.pc, opcode := _ } : Machine).finish = _
  rw [hbyte (by decide), hbyte (by decide), Int.natCast_zero, Int.add_zero]
  rfl

/-- A word that does not lie in memory is refused at its first missing byte. -/
theorem latch_of_beyond (hpc : 0xFFE < m.pc) :
    m.latch = { m with opcodeAt := m.pc }.halt (.outsideMemory (max m.pc 0x1000) 0xFFF) := by
  have hsize := hm.memory_size
  have hout : ¬ (m.memory.Holds m.pc ∧ m.memory.Holds (m.pc + 2 - 1)) := by
    simp only [Memory.holds_iff]
    omega
  -- Only a counter at the very last byte has half a word in memory.
  have hat : (if m.memory.Holds m.pc then m.pc + 2 - 1 else m.pc) = max m.pc 0x1000 := by
    have := hm.pc
    simp only [Memory.holds_iff]
    split <;> omega
  simp only [latch, fetch, Memory.readBlock_eq_error hout, hm.memory_top, hat]
  rfl

/-! ## What each way does -/

/-- Beyond the last word a step faults before anything is fetched. -/
theorem step_of_beyond (hpc : 0xFFE < m.pc) :
    m.step = { m with opcodeAt := m.pc }.halt (.outsideMemory (max m.pc 0x1000) 0xFFF) := by
  simp only [step, latch_of_beyond hm hpc, halt]

/-- A word that is no instruction is fetched, and then it is a fault. -/
theorem step_of_unknown (hpc : m.pc ≤ 0xFFE)
    (h : ¬ ∃ i : Instruction, i.EncodedBy (m.wordAt m.pc)) :
    m.step = m.latched.halt m.latched.unsupported := by
  obtain ⟨h0, h1⟩ := m.wordAt_bounds m.pc
  have hnone : Instruction.decode? m.latched.opcode = none :=
    (Instruction.decode?_eq_none_iff h0 h1).mpr h
  simp only [step, latch_of_fetched hm hpc, finish, execute, hnone, halt]

/-- An instruction that overreaches faults, and the timers are not counted down. -/
theorem step_of_overreaches (hpc : m.pc ≤ 0xFFE) (hi : i.EncodedBy (m.wordAt m.pc))
    (h : m.Overreaches i) : m.step = (m.latched.leftBy i).halt (m.overreachFault i) := by
  have hexec : m.latched.execute = (m.latched.leftBy i).halt (m.overreachFault i) := by
    rw [execute_of_encodedBy hi, exec_of_overreaches hm.latched (overreaches_latched.mpr h),
      overreachFault_latched]
  simp only [step, latch_of_fetched hm hpc, finish, hexec, halt]

/-- Any other instruction is carried out, and the timers are counted down. -/
theorem step_of_fits (hpc : m.pc ≤ 0xFFE) (hi : i.EncodedBy (m.wordAt m.pc))
    (h : ¬ m.Overreaches i) : m.step = (m.latched.exec i).machine.tick.finish := by
  have hnone := exec_of_fits hm.latched (mt overreaches_latched.mp h)
  have hexec : m.latched.execute = (m.latched.exec i).machine.finish := by
    rw [execute_of_encodedBy hi, finish, ← hnone]
  simp only [step, latch_of_fetched hm hpc, finish, hexec]

/-- A step that is completed goes the last of the four ways. -/
theorem Bounded.fits_of_completed (h : m.step.fault = none) :
    ∃ i : Instruction, m.pc ≤ 0xFFE ∧ i.EncodedBy (m.wordAt m.pc) ∧ ¬ m.Overreaches i := by
  rcases m.turn_cases with hpc | ⟨hpc, hi⟩ | ⟨hpc, i, hi, hover⟩ | ⟨hpc, i, hi, hfits⟩
  · rw [step_of_beyond hm hpc] at h
    cases h
  · rw [step_of_unknown hm hpc hi] at h
    cases h
  · rw [step_of_overreaches hm hpc hi hover] at h
    cases h
  · exact ⟨i, hpc, hi, hfits⟩

/-! ## What every step keeps -/

/-- A step keeps the bounds. -/
theorem Bounded.step : m.step.machine.Bounded := by
  rcases m.turn_cases with hpc | ⟨hpc, h⟩ | ⟨hpc, i, hi, h⟩ | ⟨hpc, i, hi, h⟩
  · rw [step_of_beyond hm hpc]
    exact { hm with opcodeAt := hm.pc }
  · rw [step_of_unknown hm hpc h]
    exact hm.latched
  · rw [step_of_overreaches hm hpc hi h]
    exact hm.latched.leftBy i
  · rw [step_of_fits hm hpc hi h]
    exact (hm.latched.exec hpc i).tick

/-- A step that faults moves nothing. -/
theorem Bounded.step_unmoved (h : m.step.fault ≠ none) : m.Unmoved m.step.machine := by
  rcases m.turn_cases with hpc | ⟨hpc, hi⟩ | ⟨hpc, i, hi, hover⟩ | ⟨hpc, i, hi, hfits⟩
  · rw [step_of_beyond hm hpc]
    constructor <;> rfl
  · rw [step_of_unknown hm hpc hi]
    exact Unmoved.latched m
  · rw [step_of_overreaches hm hpc hi hover]
    exact (Unmoved.latched m).trans (Unmoved.leftBy m.latched i)
  · rw [step_of_fits hm hpc hi hfits] at h
    exact absurd rfl h

end

end Chip8.Machine
