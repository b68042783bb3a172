import Chip8.Proofs.Machine.Overreach

/-!
# Chip8.Proofs.Machine.Following — where an instruction leads

The program counter moves by remainders, but in a bounded machine it never comes
near the number where a remainder would differ from the sum. `Machine.following`
is the address that an instruction leads to, in plain sums, and `exec_pc` says
that every instruction that is completed leads there.

From this follows that completed instructions keep the bounds (`Bounded.exec`).
-/

namespace Chip8.Machine

variable {m : Machine}

/-- The address after a skip that is taken, or not. -/
def afterSkip (m : Machine) (condition : Bool) : Int :=
  if condition then m.pc + 4 else m.pc + 2

/-- The address that a completed instruction leads to. -/
def following (m : Machine) : Instruction → Int
  | .jump target | .call target => target.val
  | .jumpFrom target => target.val + (m.reg offsetRegister).toNat
  | .ret => m.stack.calls.getLast?.getD 0 + 2
  | .skipEqByte x byte => m.afterSkip (m.reg x == byte)
  | .skipNeByte x byte => m.afterSkip (m.reg x != byte)
  | .skipEq x y => m.afterSkip (m.reg x == m.reg y)
  | .skipNe x y => m.afterSkip (m.reg x != m.reg y)
  | .skipHeld x => m.afterSkip (m.keys.held? (m.reg x) == some true)
  | .skipNotHeld x => m.afterSkip (m.keys.held? (m.reg x) == some false)
  | .waitKey _ => if m.keys.lowestHeld?.isSome then m.pc + 2 else m.pc
  | _ => m.pc + 2

/-! ## The program counter does not wrap -/

theorem advance_pc (h : 0 ≤ m.pc ∧ m.pc ≤ 0xFFFD) : m.advance.pc = m.pc + 2 := by
  show (m.pc + 2) % 0x10000 = m.pc + 2
  omega

/-- A skip leads over one word or over two. -/
theorem skipIf_pc (h : 0 ≤ m.pc ∧ m.pc ≤ 0xFFFB) (condition : Bool) :
    (m.skipIf condition).pc = m.afterSkip condition := by
  have hnext := advance_pc (m := m) (by omega)
  unfold skipIf afterSkip
  split
  · -- The second word comes from a counter that is larger by two.
    rw [advance_pc (by omega), hnext]
    omega
  · exact hnext

/-- A skip on a key leads over two words if the key is as wanted. -/
theorem skipOnKey_pc {x : Register} (h : 0 ≤ m.pc ∧ m.pc ≤ 0xFFFB) (hkey : (m.reg x).toNat ≤ 0xF)
    (wanted : Bool) :
    (m.skipOnKey x wanted).machine.pc = m.afterSkip (m.keys.held? (m.reg x) == some wanted) := by
  have hheld : m.keys.held? (m.reg x) = some m.keys[(m.reg x).toNat] :=
    Vector.getElem?_eq_getElem _
  rw [skipOnKey_of_fits hkey, hheld, Option.some_beq_some]
  exact skipIf_pc h _

section

variable (hm : m.Bounded) (hpc : m.pc ≤ 0xFFE)
include hm hpc

/-- A completed instruction leads to the address that follows it. -/
theorem exec_pc {i : Instruction} (h : ¬ m.Overreaches i) :
    (m.exec i).machine.pc = m.following i := by
  -- Both a word and two words ahead there is still room in the counter.
  have hlow : 0 ≤ m.pc ∧ m.pc ≤ 0xFFFB := ⟨hm.pc.1, by omega⟩
  have hnext : 0 ≤ m.pc ∧ m.pc ≤ 0xFFFD := ⟨hm.pc.1, by omega⟩
  cases i with
  | jump target => rfl
  | jumpFrom target => rfl
  | call target =>
    show (m.callTo target.val).machine.pc = _
    rw [callTo_of_fits hm h]
    rfl
  | ret =>
    have hopen : m.stack.calls ≠ [] := h
    have hlast := List.getLast?_eq_some_getLast hopen
    -- The newest call was opened at a word in memory, so the word after it is near.
    obtain ⟨hnonneg, hle⟩ := hm.calls _ (List.getLast_mem hopen)
    show m.returnFromCall.machine.pc = m.stack.calls.getLast?.getD 0 + 2
    rw [returnFromCall_of_fits hlast, hlast, Option.getD_some]
    exact advance_pc ⟨hnonneg, Int.le_trans hle (by decide)⟩
  | skipEqByte x byte => exact skipIf_pc hlow _
  | skipNeByte x byte => exact skipIf_pc hlow _
  | skipEq x y => exact skipIf_pc hlow _
  | skipNe x y => exact skipIf_pc hlow _
  | skipHeld x => exact skipOnKey_pc hlow (Nat.not_lt.mp h) true
  | skipNotHeld x => exact skipOnKey_pc hlow (Nat.not_lt.mp h) false
  | waitKey x =>
    show (m.waitForKey x).machine.pc = _
    unfold waitForKey following
    split
    · -- No key is held, and the same word comes round again.
      rename_i hnone
      simp [hnone, finish]
    · rename_i hsome
      simp only [hsome]
      exact advance_pc hnext
  | draw x y height =>
    show (m.drawSprite x y height.val).machine.pc = _
    rw [drawSprite_of_fits hm h]
    exact advance_pc hnext
  | storeDecimal x =>
    show (m.storeDecimalOf x).machine.pc = _
    rw [storeDecimalOf_of_fits hm (Int.not_lt.mp h)]
    exact advance_pc hnext
  | storeRegisters x =>
    show (m.storeThrough x).machine.pc = _
    rw [storeThrough_of_fits hm (Int.not_lt.mp h)]
    exact advance_pc hnext
  | loadRegisters x =>
    show (m.loadThrough x).machine.pc = _
    rw [loadThrough_of_fits hm (Int.not_lt.mp h)]
    exact advance_pc hnext
  | readDelay x =>
    show (m.readDelayInto x).machine.pc = _
    rw [readDelayInto_eq hm]
    exact advance_pc hnext
  | _ => exact advance_pc hnext

/-! ## The bounds are kept -/

omit hpc in
/-- What an instruction leaves that overreaches is within the bounds. -/
theorem Bounded.leftBy (i : Instruction) : (m.leftBy i).Bounded := by
  cases i with
  | draw x y height => exact (hm.setReg _ _).setDisplay (hm.display.overlay _)
  | storeDecimal x => exact hm.setMemory (Memory.size_storing _)
  | _ => exact hm

/-- An instruction keeps the bounds if it is completed. -/
theorem Bounded.exec_of_fits {i : Instruction} (h : ¬ m.Overreaches i) :
    (m.exec i).machine.Bounded := by
  have hroom : m.pc ≤ 0x10FC := by omega
  have hskip (condition : Bool) : (m.skipIf condition).Bounded := hm.skipIf (by omega) condition
  have hkey {x : Register} (hx : (m.reg x).toNat ≤ 0xF) (wanted : Bool) :
      (m.skipOnKey x wanted).machine.Bounded := by
    rw [skipOnKey_of_fits hx]
    exact hskip _
  cases i with
  | clear => exact (hm.setDisplay hm.display.clear).advance hroom
  | ret =>
    have hopen : m.stack.calls ≠ [] := h
    -- The newest call was opened at a word in memory.
    obtain ⟨hnonneg, hle⟩ := hm.calls _ (List.getLast_mem hopen)
    show m.returnFromCall.machine.Bounded
    rw [returnFromCall_of_fits (List.getLast?_eq_some_getLast hopen)]
    exact (hm.closeCall.setPc ⟨hnonneg, by omega⟩).advance (Int.le_trans hle (by decide))
  | jump target => exact hm.setPc ⟨by omega, by omega⟩
  | call target =>
    show (m.callTo target.val).machine.Bounded
    rw [callTo_of_fits hm h]
    exact (hm.openCall hpc h).setPc ⟨by omega, by omega⟩
  | skipEqByte | skipNeByte | skipEq | skipNe => exact hskip _
  | skipHeld x => exact hkey (Nat.not_lt.mp h) true
  | skipNotHeld x => exact hkey (Nat.not_lt.mp h) false
  | loadByte | addByte | load | or | and | xor => exact (hm.setReg _ _).advance hroom
  | add | sub | subFrom | shiftRight | shiftLeft =>
    exact ((hm.setReg _ _).setReg _ _).advance hroom
  | loadIndex target => exact (hm.setI ⟨by omega, by omega⟩).advance hroom
  | jumpFrom target =>
    -- The sum is not cut to an address, so nothing leads further than this.
    have := (m.reg offsetRegister).toNat_lt
    exact hm.setPc ⟨by omega, by omega⟩
  | random x byte => exact ((hm.setRandom _).setReg _ _).advance hroom
  | draw x y height =>
    show (m.drawSprite x y height.val).machine.Bounded
    rw [drawSprite_of_fits hm h]
    exact (((hm.setReg _ _).setDisplay (hm.display.overlay _).touch).setReg _ _).advance hroom
  | readDelay x =>
    show (m.readDelayInto x).machine.Bounded
    rw [readDelayInto_eq hm]
    exact (hm.setReg _ _).advance hroom
  | waitKey x =>
    show (m.waitForKey x).machine.Bounded
    unfold waitForKey
    split
    · -- Without a held key the machine stays as it is, and else it moves on.
      exact hm
    · exact (hm.setReg _ _).advance hroom
  | setDelay x =>
    have := (m.reg x).toNat_lt
    exact (hm.setDelay ⟨by omega, by omega⟩).advance hroom
  | setSound x =>
    have := (m.reg x).toNat_lt
    exact (hm.setSound ⟨by omega, by omega⟩).advance hroom
  | addIndex x => exact (hm.setI ⟨by omega, by omega⟩).advance hroom
  | loadGlyph x =>
    have := (m.reg x).toNat_lt
    have hglyph : 0 ≤ (fontStart : Int) + Font.glyphHeight * (m.reg x).toNat ∧
        (fontStart : Int) + Font.glyphHeight * (m.reg x).toNat ≤ 0xFFFF := by
      simp only [fontStart, Font.glyphHeight]
      omega
    exact (hm.setI hglyph).advance hroom
  | storeDecimal x =>
    show (m.storeDecimalOf x).machine.Bounded
    rw [storeDecimalOf_of_fits hm (Int.not_lt.mp h)]
    exact (hm.setMemory (Memory.size_storing _)).advance hroom
  | storeRegisters x =>
    show (m.storeThrough x).machine.Bounded
    rw [storeThrough_of_fits hm (Int.not_lt.mp h)]
    exact (hm.setMemory (Memory.size_storing _)).advance hroom
  | loadRegisters x =>
    show (m.loadThrough x).machine.Bounded
    rw [loadThrough_of_fits hm (Int.not_lt.mp h)]
    have hi : 0 ≤ (m.i + x.val + 1) % 0x10000 ∧ (m.i + x.val + 1) % 0x10000 ≤ 0xFFFF := by omega
    -- Whatever was loaded, the registers are bytes.
    generalize Vector.ofFn _ = v
    exact ((hm.setV v).setI hi).advance hroom

/-- An instruction keeps the bounds, whether it is completed or not. -/
theorem Bounded.exec (i : Instruction) : (m.exec i).machine.Bounded := by
  by_cases h : m.Overreaches i
  · rw [exec_of_overreaches hm h]
    exact hm.leftBy i
  · exact hm.exec_of_fits hpc h

end

end Chip8.Machine
