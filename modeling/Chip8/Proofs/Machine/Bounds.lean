import Chip8.Machine.Step
import Chip8.Proofs.Display.Overlay

/-!
# Chip8.Proofs.Machine.Bounds — the numbers of a machine stay small

The counter, the timers and the other numbers of a machine are whole numbers
without bounds. `Machine.Bounded` are the bounds that a running machine keeps all
the same, and this module shows that every part of a step keeps them.

The bound of the open calls is what makes the others hold. A call is opened at
the address of an instruction that was fetched, so a return never leads beyond
memory, and only `jumpFrom` does.
-/

namespace Chip8.Machine

variable {m : Machine}

/-- The bounds that a running machine keeps. Registers, keys and pixels have
theirs by their types. -/
structure Bounded (m : Machine) : Prop where
  memory : m.memory.size = 0x1000
  display : m.display.Standard
  limit : m.stack.limit = 16
  depth : m.stack.depth ≤ 16
  calls : ∀ a ∈ m.stack.calls, 0 ≤ a ∧ a ≤ 0xFFE
  i : 0 ≤ m.i ∧ m.i ≤ 0xFFFF
  pc : 0 ≤ m.pc ∧ m.pc ≤ 0x10FE
  opcodeAt : 0 ≤ m.opcodeAt ∧ m.opcodeAt ≤ 0x10FE
  opcode : 0 ≤ m.opcode ∧ m.opcode ≤ 0xFFFF
  delay : 0 ≤ m.delay ∧ m.delay ≤ 0xFF
  sound : 0 ≤ m.sound ∧ m.sound ≤ 0xFF

namespace Bounded

/-! ## A new machine -/

/-- A new machine is within all bounds. -/
theorem fresh (random : RandomSource) : (Machine.fresh random).Bounded where
  memory := by
    simp [Machine.fresh, freshMemory, Memory.size, fontStart, memorySize, Font.size_glyphs,
      Font.glyphHeight]
  display := by
    refine ⟨rfl, rfl, ?_⟩
    simp [Machine.fresh, Display.blank, Display.area, displayWidth, displayHeight]
  limit := rfl
  depth := by simp [Machine.fresh, CallStack.empty, CallStack.depth]
  calls := by simp [Machine.fresh, CallStack.empty]
  i := by simp [Machine.fresh]
  pc := by simp [Machine.fresh, programStart]
  opcodeAt := by simp [Machine.fresh, programStart]
  opcode := by simp [Machine.fresh]
  delay := by simp [Machine.fresh]
  sound := by simp [Machine.fresh]

theorem memory_size (h : m.Bounded) : (m.memory.size : Int) = 0x1000 := by
  rw [h.memory]
  rfl

theorem memory_top (h : m.Bounded) : m.memory.top = 0xFFF := by
  rw [Memory.top, h.memory_size]
  rfl

/-! ## Changes of one part -/

theorem setReg (h : m.Bounded) (x : Register) (byte : UInt8) : (m.setReg x byte).Bounded :=
  { h with }

theorem setMemory (h : m.Bounded) {memory : Memory} (hsize : memory.size = m.memory.size) :
    { m with memory := memory }.Bounded :=
  { h with memory := hsize.trans h.memory }

theorem setDisplay (h : m.Bounded) {d : Display} (hd : d.Standard) :
    { m with display := d }.Bounded :=
  { h with display := hd }

theorem setPc (h : m.Bounded) {a : Int} (ha : 0 ≤ a ∧ a ≤ 0x10FE) : { m with pc := a }.Bounded :=
  { h with pc := ha }

theorem setI (h : m.Bounded) {a : Int} (ha : 0 ≤ a ∧ a ≤ 0xFFFF) : { m with i := a }.Bounded :=
  { h with i := ha }

theorem setV (h : m.Bounded) (v : Vector UInt8 16) : { m with v := v }.Bounded :=
  { h with }

theorem setDelay (h : m.Bounded) {n : Int} (hn : 0 ≤ n ∧ n ≤ 0xFF) :
    { m with delay := n }.Bounded :=
  { h with delay := hn }

theorem setSound (h : m.Bounded) {n : Int} (hn : 0 ≤ n ∧ n ≤ 0xFF) :
    { m with sound := n }.Bounded :=
  { h with sound := hn }

/-- A call is opened at the address of an instruction that was fetched. -/
theorem openCall (h : m.Bounded) (hpc : m.pc ≤ 0xFFE) (hdepth : m.stack.depth ≠ 16) :
    { m with stack := { m.stack with calls := m.stack.calls ++ [m.pc] } }.Bounded :=
  { h with
    depth := by
      have := h.depth
      simp only [CallStack.depth, List.length_append, List.length_singleton] at this hdepth ⊢
      omega
    calls := by
      intro a ha
      -- A call that was open already, or the new one.
      rcases List.mem_append.mp ha with ha | ha
      · exact h.calls a ha
      · rw [List.mem_singleton.mp ha]
        exact ⟨h.pc.1, hpc⟩ }

/-- To close a call keeps the bounds, since the calls below it are within them. -/
theorem closeCall (h : m.Bounded) :
    { m with stack := { m.stack with calls := m.stack.calls.dropLast } }.Bounded :=
  { h with
    depth := by
      have := h.depth
      simp only [CallStack.depth, List.length_dropLast] at this ⊢
      omega
    calls := fun a ha => h.calls a (List.dropLast_subset _ ha) }

theorem setBeeps (h : m.Bounded) (n : Nat) : { m with beeps := n }.Bounded :=
  { h with }

theorem setRandom (h : m.Bounded) (random : RandomSource) : { m with random := random }.Bounded :=
  { h with }

/-- To move on by one word keeps the bounds where there is room for it. -/
theorem advance (h : m.Bounded) (hpc : m.pc ≤ 0x10FC) : m.advance.Bounded := by
  refine h.setPc ?_
  have := h.pc
  omega

/-- A skip keeps the bounds where there is room for two words. -/
theorem skipIf (h : m.Bounded) (hpc : m.pc ≤ 0x10FA) (condition : Bool) :
    (m.skipIf condition).Bounded := by
  have hnext : m.advance.pc ≤ 0x10FC := by
    have := h.pc
    show (m.pc + 2) % 0x10000 ≤ 0x10FC
    omega
  unfold Machine.skipIf
  split
  · exact (h.advance (by omega)).advance hnext
  · exact h.advance (by omega)

end Bounded

end Chip8.Machine
