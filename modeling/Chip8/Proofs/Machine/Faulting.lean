import Chip8.Proofs.Machine.Invariant

/-!
# Chip8.Proofs.Machine.Faulting — when a step faults, and what it leaves

The two questions about a step that faults, answered for every machine that
operations lead to:

* `fault_kind_of_step` — a step asks for something that is missing, or meets a word
  that is no instruction, or is completed. Each has an exact condition.
* `step_of_fault` — a step that faults leaves the machine as it was but for the word
  in progress, and for what a sprite or the decimal digits did before they were cut
  short.
-/

namespace Chip8

/-! ## Kinds of faults -/

/-- The kinds of faults. -/
inductive Fault.Kind where
  /-- Something is asked for that the machine does not have. -/
  | outOfBounds
  /-- A word is no instruction. -/
  | unsupported
  /-- A number is no byte. -/
  | badValue
deriving DecidableEq

/-- The kind of a fault. -/
def Fault.kind : Fault → Fault.Kind
  | .outsideMemory .. | .stackOverflow _ | .stackUnderflow | .noSuchKey _ => .outOfBounds
  | .unsupported .. => .unsupported
  | .notAByte _ => .badValue

namespace Machine

variable {m : Machine} {i : Instruction}

/-- What an instruction lacks is out of bounds, whatever it is. -/
theorem overreachFault_kind (m : Machine) (i : Instruction) :
    (m.overreachFault i).kind = .outOfBounds := by
  cases i <;> rfl

/-! ## When a step faults -/

section

variable (hm : m.Bounded)
include hm

/-- Beyond memory a step is out of bounds. -/
theorem fault_kind_of_beyond (hpc : 0xFFE < m.pc) :
    m.step.fault.map Fault.kind = some .outOfBounds := by
  rw [step_of_beyond hm hpc]
  rfl

/-- A word that is no instruction is not supported. -/
theorem fault_kind_of_unknown (hpc : m.pc ≤ 0xFFE)
    (h : ¬ ∃ i : Instruction, i.EncodedBy (m.wordAt m.pc)) :
    m.step.fault.map Fault.kind = some .unsupported := by
  rw [step_of_unknown hm hpc h]
  rfl

/-- An instruction that overreaches is out of bounds. -/
theorem fault_kind_of_overreaches (hpc : m.pc ≤ 0xFFE) (hi : i.EncodedBy (m.wordAt m.pc))
    (h : m.Overreaches i) : m.step.fault.map Fault.kind = some .outOfBounds := by
  rw [step_of_overreaches hm hpc hi h]
  exact congrArg some (overreachFault_kind m i)

/-- Any other instruction is no fault. -/
theorem fault_kind_of_fits (hpc : m.pc ≤ 0xFFE) (hi : i.EncodedBy (m.wordAt m.pc))
    (h : ¬ m.Overreaches i) : m.step.fault.map Fault.kind = none := by
  rw [step_of_fits hm hpc hi h]
  rfl

/-- A word that is not decoded is a fault, wherever the counter stands. -/
theorem fault_of_unknown (h : Instruction.decode? (m.wordAt m.pc) = none) :
    m.step.fault ≠ none := by
  -- If the word does not lie in memory, the step faults before the word is looked at.
  rcases Int.lt_or_le 0xFFE m.pc with hpc | hpc
  · rw [step_of_beyond hm hpc]
    exact Option.some_ne_none _
  · obtain ⟨h0, h1⟩ := m.wordAt_bounds m.pc
    rw [step_of_unknown hm hpc ((Instruction.decode?_eq_none_iff h0 h1).mp h)]
    exact Option.some_ne_none _

/-- An instruction that overreaches is a fault, wherever the counter stands. -/
theorem fault_of_overreaches (hi : i.EncodedBy (m.wordAt m.pc)) (h : m.Overreaches i) :
    m.step.fault ≠ none := by
  rcases Int.lt_or_le 0xFFE m.pc with hpc | hpc
  · rw [step_of_beyond hm hpc]
    exact Option.some_ne_none _
  · rw [step_of_overreaches hm hpc hi h]
    exact Option.some_ne_none _

end

/-! ## A program that overwrites its last instruction -/

/-- Two steps that set the index and jump, on a machine whose timers are idle. -/
theorem loadIndex_jump {m : Machine} {a b : Fin 4096} (hm : m.Bounded) (hpc : m.pc ≤ 0xFFC)
    (hsound : m.sound = 0) (hdelay : m.delay = 0)
    (hfirst : (Instruction.loadIndex a).EncodedBy (m.wordAt m.pc))
    (hsecond : (Instruction.jump b).EncodedBy (m.wordAt (m.pc + 2))) :
    let m' := m.performAll [.step, .step]
    m'.pc = b.val ∧ m'.i = a.val ∧ m'.memory = m.memory := by
  have hnext := advance_pc (m := m) ⟨hm.pc.1, by omega⟩
  -- Both timers are idle, so counting them down changes nothing.
  have h₁ : m.step.machine = { m.latched with i := a.val, pc := m.pc + 2 } := by
    rw [step_of_fits hm (by omega) hfirst id, ← hnext]
    exact tick_of_idle hsound hdelay
  have h₂ : m.step.machine.step.machine = { m.step.machine.latched with pc := b.val } := by
    rw [step_of_fits hm.step (i := .jump b) (by rw [h₁]; show m.pc + 2 ≤ 0xFFE; omega)
      (by rw [h₁]; exact hsecond) id]
    show Machine.tick { m.step.machine.latched with pc := b.val } = _
    rw [h₁]
    exact tick_of_idle hsound hdelay
  show m.step.machine.step.machine.pc = b.val ∧ m.step.machine.step.machine.i = a.val ∧
    m.step.machine.step.machine.memory = m.memory
  rw [h₂, h₁]
  exact ⟨rfl, rfl, rfl⟩

/-- A program whose last instruction stores digits over itself. -/
def overwriting : Array UInt8 :=
  #[0xAF, 0xFE, 0x1F, 0xFE] ++ Array.replicate 3578 0 ++ #[0xF0, 0x33]

/-- The program fills all the room that there is. -/
theorem overwriting_room : overwriting.size ≤ programRoom := by
  simp [overwriting, programRoom, memorySize, programStart]

/-- Its first word sets the index to the last word. -/
theorem wordAt_overwriting_first : (programmed overwriting).wordAt 0x200 = 0xAFFE := by
  have hhigh : overwriting[0]? = some 0xAF := by simp [overwriting]
  have hlow : overwriting[1]? = some 0xFE := by simp [overwriting]
  have hword := wordAt_programmed overwriting_room hhigh hlow
  exact hword

/-- Its second word jumps to the last word. -/
theorem wordAt_overwriting_second : (programmed overwriting).wordAt 0x202 = 0x1FFE := by
  have hhigh : overwriting[2]? = some 0x1F := by simp [overwriting]
  have hlow : overwriting[3]? = some 0xFE := by simp [overwriting]
  have hword := wordAt_programmed overwriting_room hhigh hlow
  exact hword

/-- Its last word stores decimal digits. -/
theorem wordAt_overwriting_last : (programmed overwriting).wordAt 0xFFE = 0xF033 := by
  have hhigh : overwriting[3582]? = some 0xF0 := by simp [overwriting]
  have hlow : overwriting[3583]? = some 0x33 := by simp [overwriting]
  have hword := wordAt_programmed overwriting_room hhigh hlow
  exact hword

/-- The machine that is about to carry out the last instruction. -/
def overwritten : Machine := (programmed overwriting).performAll [.step, .step]

theorem reachable_overwritten : overwritten.Reachable :=
  (reachable_programmed overwriting).performAll [.step, .step]

/-- It stands at the last word, with the index there too. -/
theorem overwritten_spec :
    overwritten.pc = 0xFFE ∧ overwritten.i = 0xFFE ∧ overwritten.wordAt 0xFFE = 0xF033 := by
  have hm := (reachable_programmed overwriting).bounded
  have hstart := programmed_eq overwriting_room
  have hpc : (programmed overwriting).pc = 0x200 := by rw [hstart]; rfl
  have hsound : (programmed overwriting).sound = 0 := by rw [hstart]; rfl
  have hdelay : (programmed overwriting).delay = 0 := by rw [hstart]; rfl
  obtain ⟨hpc', hi', hmemory⟩ := loadIndex_jump (a := 0xFFE) (b := 0xFFE) hm (by rw [hpc]; decide)
    hsound hdelay (by rw [hpc]; exact wordAt_overwriting_first)
    (by rw [hpc]; exact wordAt_overwriting_second)
  exact ⟨hpc', hi', (wordAt_congr hmemory 0xFFE).trans wordAt_overwriting_last⟩

/-- The word that it stands at stores digits. -/
theorem overwritten_encodes :
    (Instruction.storeDecimal 0).EncodedBy (overwritten.wordAt overwritten.pc) := by
  obtain ⟨hpc, -, hword⟩ := overwritten_spec
  rw [hpc, hword]
  rfl

/-- The third digit would lie beyond memory. -/
theorem overwritten_overreaches : overwritten.Overreaches (.storeDecimal 0) := by
  obtain ⟨-, hi, -⟩ := overwritten_spec
  show 0xFFF < overwritten.i + 2
  rw [hi]
  decide

theorem overwritten_faults : overwritten.step.fault ≠ none :=
  fault_of_overreaches reachable_overwritten.bounded overwritten_encodes overwritten_overreaches

/-! ## All runs -/

/-- When a step faults, and with which kind of fault. No register is ever given a
number that is no byte. -/
theorem fault_kind_of_step (h : m.Reachable) :
    (m.step.fault.map Fault.kind = some .unsupported ↔
      m.pc ≤ 0xFFE ∧ ¬ ∃ i : Instruction, i.EncodedBy (m.wordAt m.pc)) ∧
    (m.step.fault.map Fault.kind = some .outOfBounds ↔
      0xFFE < m.pc ∨ ∃ i : Instruction, i.EncodedBy (m.wordAt m.pc) ∧ m.Overreaches i) ∧
    (m.step.fault.map Fault.kind = none ↔
      m.pc ≤ 0xFFE ∧ ∃ i : Instruction, i.EncodedBy (m.wordAt m.pc) ∧ ¬ m.Overreaches i) ∧
    m.step.fault.map Fault.kind ≠ some .badValue := by
  have hm := h.bounded
  rcases m.turn_cases with hpc | ⟨hpc, hi⟩ | ⟨hpc, i, hi, hover⟩ | ⟨hpc, i, hi, hfits⟩
  · -- The counter is beyond memory.
    have hout : ¬ m.pc ≤ 0xFFE := by omega
    simp [fault_kind_of_beyond hm hpc, hpc, hout]
  · -- The word is no instruction.
    have hnone (P : Instruction → Prop) :
        ¬ ∃ i : Instruction, i.EncodedBy (m.wordAt m.pc) ∧ P i := by
      rintro ⟨i, hword, -⟩
      exact hi ⟨i, hword⟩
    have hin : ¬ 0xFFE < m.pc := by omega
    simp only [fault_kind_of_unknown hm hpc hi, hnone, hin, hpc, hi]
    simp
  · -- The word is an instruction that overreaches, and it is no other instruction.
    have hknown : ∃ i : Instruction, i.EncodedBy (m.wordAt m.pc) := ⟨i, hi⟩
    simp only [fault_kind_of_overreaches hm hpc hi hover, Instruction.exists_encodedBy_iff hi,
      hover, hknown]
    simp
  · -- The word is an instruction that is completed.
    have hknown : ∃ i : Instruction, i.EncodedBy (m.wordAt m.pc) := ⟨i, hi⟩
    have hin : ¬ 0xFFE < m.pc := by omega
    simp only [fault_kind_of_fits hm hpc hi hfits, Instruction.exists_encodedBy_iff hi,
      hfits, hknown, hin, hpc]
    simp

/-- A program that overwrites its last word runs out of bounds there. -/
theorem overwritten_fault_kind :
    overwritten.step.fault.map Fault.kind = some .outOfBounds := by
  obtain ⟨-, hbounds, -⟩ := fault_kind_of_step reachable_overwritten
  exact hbounds.mpr (.inr ⟨_, overwritten_encodes, overwritten_overreaches⟩)

/-! ## What a step that faults leaves -/

/-- What a step that faults leaves: the machine as it was, but for

* the address of the word in progress, and the word if it could be fetched;
* the cleared flag and the rows that lie in memory, if a sprite was cut short;
* the digits that have a place, if decimal digits were cut short.

Nothing else that was there before has moved. -/
theorem step_of_fault (h : m.Reachable) (hfault : m.step.fault ≠ none) :
    (0xFFE < m.pc → m.step.machine = { m with opcodeAt := m.pc }) ∧
    (m.pc ≤ 0xFFE → (¬ ∃ i : Instruction, i.EncodedBy (m.wordAt m.pc)) →
      m.step.machine = m.latched) ∧
    (m.pc ≤ 0xFFE → ∀ i : Instruction, i.EncodedBy (m.wordAt m.pc) →
      m.step.machine = m.latched.leftBy i) ∧
    m.Unmoved m.step.machine := by
  have hm := h.bounded
  -- The four ways of a step, of which the last one does not end in a fault.
  refine ⟨?_, ?_, ?_, hm.step_unmoved hfault⟩
  · intro hpc
    rw [step_of_beyond hm hpc]
    rfl
  · intro hpc hunknown
    rw [step_of_unknown hm hpc hunknown]
    rfl
  · intro hpc i hi
    rcases Classical.em (m.Overreaches i) with hover | hfits
    · rw [step_of_overreaches hm hpc hi hover]
      rfl
    · -- The step would have been completed.
      rw [step_of_fits hm hpc hi hfits] at hfault
      exact absurd rfl hfault

/-- Two of the three digits are left in memory, over the word that stored them. -/
theorem overwritten_leaves :
    overwritten.step.machine = overwritten.latched.leftBy (.storeDecimal 0) := by
  obtain ⟨-, -, hleaves, -⟩ := step_of_fault reachable_overwritten overwritten_faults
  obtain ⟨hpc, -⟩ := overwritten_spec
  exact hleaves (Int.le_of_eq hpc) _ overwritten_encodes

end Machine

end Chip8
