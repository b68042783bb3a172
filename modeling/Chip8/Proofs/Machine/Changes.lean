import Chip8.Proofs.Machine.Effect
import Chip8.Proofs.Machine.Counter

/-!
# Chip8.Proofs.Machine.Changes — what a completed step changes, and nothing else

`Machine.Changes` compares the machines before and after a step, part by part, and
`changes_of_completed` says that each completed step of a machine obeys it. The
operands are those from before the step, and both timers are those after the
countdown that closes it.

Registers, the index, the open calls and the random source change as the tables of
`Machine.after` say. Memory and the picture are compared byte by byte and pixel by
pixel: of memory only the decimal digits or the registers that were stored are new,
and of the picture only what a sprite selects is turned over.
-/

namespace Chip8.Machine

variable {m : Machine} {i : Instruction}

/-! ## Memory -/

/-- The bytes of a bank that was stored to are three decimal digits of a register,
or the registers up to one of them. All other instructions leave the bank alone. -/
def MemoryChange (m : Machine) (memory : Memory) : Instruction → Prop
  | .storeDecimal x =>
    ∃ hundreds tens ones : UInt8, hundreds ≤ 9 ∧ tens ≤ 9 ∧ ones ≤ 9 ∧
      100 * hundreds.toNat + 10 * tens.toNat + ones.toNat = (m.reg x).toNat ∧
      m.memory.LaidOver m.i [hundreds, tens, ones] memory
  | .storeRegisters x => m.memory.LaidOver m.i (m.v.toList.take (x.val + 1)) memory
  | _ => memory = m.memory

/-- The three digits of a byte are its decimal digits. -/
theorem decimalDigits_spec (byte : UInt8) :
    byte / 100 ≤ 9 ∧ byte / 10 % 10 ≤ 9 ∧ byte % 10 ≤ 9 ∧
      100 * (byte / 100).toNat + 10 * (byte / 10 % 10).toNat + (byte % 10).toNat =
        byte.toNat := by
  have hlt := byte.toNat_lt
  have hhundreds : (byte / 100).toNat = byte.toNat / 100 := UInt8.toNat_div byte 100
  have htens : (byte / 10 % 10).toNat = byte.toNat / 10 % 10 := by
    rw [UInt8.toNat_mod, UInt8.toNat_div]
    rfl
  have hones : (byte % 10).toNat = byte.toNat % 10 := UInt8.toNat_mod byte 10
  have hnine : (9 : UInt8).toNat = 9 := rfl
  simp only [UInt8.le_iff_toNat_le, hhundreds, htens, hones, hnine]
  omega

/-- A completed instruction changes memory as it says. -/
theorem memoryChange_memoryAfter (hm : m.Bounded) (h : ¬ m.Overreaches i) :
    m.MemoryChange (m.memoryAfter i) i := by
  have hsize := hm.memory_size
  cases i with
  | storeDecimal x =>
    -- All three digits have a place.
    have hend : m.i + 2 ≤ 0xFFF := Int.not_lt.mp h
    obtain ⟨hhundreds, htens, hones, hsum⟩ := decimalDigits_spec (m.reg x)
    refine ⟨_, _, _, hhundreds, htens, hones, hsum, ?_⟩
    refine Memory.laidOver_storing hm.i.1 ?_
    simp only [List.length_cons, List.length_nil]
    omega
  | storeRegisters x =>
    have hend : m.i + x.val ≤ 0xFFF := Int.not_lt.mp h
    have hrow : (m.v.toArray.extract 0 (x.val + 1)).toList = m.v.toList.take (x.val + 1) := by
      simp [Vector.toList]
    -- There are sixteen registers, so none is missing to the row.
    have hlength : (m.v.toList.take (x.val + 1)).length = x.val + 1 := by
      rw [List.length_take, Vector.length_toList]
      omega
    show m.memory.LaidOver m.i _ (m.memory.storing m.i _)
    rw [hrow]
    refine Memory.laidOver_storing hm.i.1 ?_
    rw [hlength]
    omega
  | _ => rfl

/-- Each register that was stored is found in its place. -/
theorem MemoryChange.byteAt_register {memory : Memory} {x r : Register}
    (h : m.MemoryChange memory (.storeRegisters x)) (hr : r ≤ x) :
    memory.byteAt (m.i + r.val) = m.reg r := by
  have hlaid : m.memory.LaidOver m.i (m.v.toList.take (x.val + 1)) memory := h
  have hle : r.val ≤ x.val := hr
  have hlt : r.val < (m.v.toList.take (x.val + 1)).length := by
    rw [List.length_take, Vector.length_toList]
    omega
  rw [hlaid.found r.val hlt]
  simp [reg]

/-! ## The picture -/

/-- A picture that was cleared has no lit pixel, and one that was drawn on is turned
over where the sprite selects it. Both are marked as changed. All other instructions
leave the picture alone. -/
def PictureChange (m : Machine) (d : Display) : Instruction → Prop
  | .clear => d.Standard ∧ d.changed = true ∧ ∀ p < 2048, d.pixels.getD p false = false
  | .draw x y height =>
    d.Standard ∧ d.changed = true ∧
      ∀ p < 2048, d.pixels.getD p false =
        (m.display.pixels.getD p false ^^ m.spriteOf x y height.val p)
  | _ => d = m.display

/-- A completed instruction changes the picture as it says. -/
theorem pictureChange_displayAfter (hm : m.Bounded) (i : Instruction) :
    m.PictureChange (m.displayAfter i) i := by
  cases i with
  | clear =>
    refine ⟨hm.display.clear, rfl, fun p hp => ?_⟩
    -- A place of the picture is one of those that were unlit.
    have hlt : p < m.display.area := hm.display.area ▸ hp
    simp [displayAfter, Display.clear, Display.unlit, hlt]
  | draw x y height =>
    refine ⟨(hm.display.overlay _).touch, rfl, fun p hp => ?_⟩
    have hlt : p < m.display.area := hm.display.area ▸ hp
    exact Display.getD_overlay hlt
  | _ => rfl

/-! ## All parts -/

/-- The machine `m'` is what the instruction `i` makes of `m` in a completed step, but
for the counter and the word in progress. -/
structure Changes (m : Machine) (i : Instruction) (m' : Machine) : Prop where
  memory : m.MemoryChange m'.memory i
  picture : m.PictureChange m'.display i
  registers : ∀ r, m'.reg r = m.registerAfter i r
  index : m'.i = m.indexAfter i
  stack : m'.stack = { m.stack with calls := m.callsAfter i }
  delay : m'.delay = max 0 (m.delayAfter i - 1)
  sound : m'.sound = max 0 (m.soundAfter i - 1)
  beeps : m'.beeps = if 0 < m.soundAfter i then m.beeps + 1 else m.beeps
  keys : m'.keys = m.keys
  random : m'.random = m.randomAfter i

/-- A completed step changes all parts as its instruction says. -/
theorem changes_stepped (hm : m.Bounded) (h : ¬ m.Overreaches i) : m.Changes i (m.stepped i) where
  memory := memoryChange_memoryAfter hm h
  picture := pictureChange_displayAfter hm i
  registers := m.reg_stepped i
  index := rfl
  stack := rfl
  delay := rfl
  sound := rfl
  beeps := rfl
  keys := rfl
  random := rfl

/-- A completed step carries out the instruction that the counter stands at: it
changes what this instruction changes, and no other part of the machine. -/
theorem changes_of_completed (h : m.Reachable) (hdone : m.step.fault = none) :
    ∃ i : Instruction, i.EncodedBy (m.wordAt m.pc) ∧ m.Changes i m.step.machine := by
  obtain ⟨i, -, hi, hfits, hstep⟩ := h.bounded.step_eq_of_completed hdone
  refine ⟨i, hi, ?_⟩
  rw [hstep]
  exact changes_stepped h.bounded hfits

/-- Storing over the word that stores leaves two registers in its place, and the word
behind it as it was. -/
theorem aboutToStore_overwritten :
    aboutToStore.step.machine.memory.byteAt 0x202 = aboutToStore.reg 2 ∧
      aboutToStore.step.machine.memory.byteAt 0x203 = aboutToStore.reg 3 ∧
      aboutToStore.step.machine.memory.byteAt 0x204 = aboutToStore.memory.byteAt 0x204 := by
  have hchanges := (Instruction.exists_encodedBy_iff aboutToStore_encodes).mp
    (changes_of_completed reachable_aboutToStore aboutToStore_completes)
  have hsize := reachable_aboutToStore.bounded.memory_size
  have hlaid : aboutToStore.memory.LaidOver _ _ _ := hchanges.memory
  have hstored (r : Register) (hr : r ≤ 3) := hchanges.memory.byteAt_register hr
  rw [aboutToStore_stands.1] at hlaid hstored
  refine ⟨hstored 2 (by decide), hstored 3 (by decide), ?_⟩
  refine hlaid.others 0x204 (Memory.holds_iff.mpr (by omega)) (.inr ?_)
  rw [List.length_take, Vector.length_toList]
  decide

end Chip8.Machine
