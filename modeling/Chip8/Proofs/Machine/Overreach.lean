import Chip8.Proofs.Machine.Bounds
import Chip8.Proofs.Machine.Sprite

/-!
# Chip8.Proofs.Machine.Overreach — which instructions fault, and what they leave

An instruction overreaches if it asks for something that the machine does not
have: a place in memory, an open call, room for one more call, a seventeenth key.

* `Machine.Overreaches` — the exact condition, instruction by instruction.
* `Machine.overreachFault` and `Machine.leftBy` — the fault and the machine that
  are left then. Only a sprite and the decimal digits leave anything behind.

`exec_of_overreaches` says that an instruction that overreaches does just this,
and `exec_of_fits` that every other instruction is completed. Before them each
operation that may fault has two equations of its own, one for each outcome.
-/

namespace Chip8.Machine

variable {m : Machine} {x y : Register} {n : Nat}

/-! ## Conditions, faults and remains -/

/-- Whether an instruction asks for something that the machine does not have. -/
def Overreaches (m : Machine) : Instruction → Prop
  | .ret => m.stack.calls = []
  | .call _ => m.stack.depth = 16
  | .skipHeld x | .skipNotHeld x => 0xF < (m.reg x).toNat
  | .draw _ _ height => 1 ≤ height.val ∧ 0xFFF < m.i + height.val - 1
  | .storeDecimal _ => 0xFFF < m.i + 2
  | .storeRegisters x | .loadRegisters x => 0xFFF < m.i + x.val
  | _ => False

/-- The fault of an instruction that overreaches. -/
def overreachFault (m : Machine) : Instruction → Fault
  | .ret => .stackUnderflow
  | .call _ => .stackOverflow 16
  | .skipHeld x | .skipNotHeld x => .noSuchKey (m.reg x)
  | .storeRegisters x | .loadRegisters x =>
    .outsideMemory (if m.i ≤ 0xFFF then m.i + x.val else m.i) 0xFFF
  | _ => .outsideMemory (max m.i 0x1000) 0xFFF

/-- The pixels that a sprite at the position of two registers selects. -/
def spriteOf (m : Machine) (x y : Register) (n : Nat) : Nat → Bool :=
  spriteMask m.memory (m.reg x).toNat (m.reg y).toNat m.i n

/-- What an instruction that overreaches leaves. A sprite has cleared the flag and
drawn its rows that lie in memory, and of the decimal digits those are stored
that have a place. -/
def leftBy (m : Machine) : Instruction → Machine
  | .draw x y height =>
    { m.setFlag 0 with display := m.display.overlay (m.spriteOf x y height.val) }
  | .storeDecimal x =>
    { m with memory := m.memory.storing m.i (decimalDigits (m.reg x)) }
  | _ => m

/-- The row of the registers from `V0` to `VX`. -/
theorem size_registersThrough (m : Machine) (x : Register) :
    (m.v.toArray.extract 0 (x.val + 1)).size = x.val + 1 := by
  simp only [Array.size_extract, Vector.size_toArray]
  omega

section Operations

variable (hm : m.Bounded)
include hm

/-! ## Sprites -/

/-- A sprite draws its rows that lie in memory, and is completed if all of them do.
The flag then says whether a lit pixel was turned off. -/
theorem drawSprite_eq {n : Nat} (hn : n ≤ 32) :
    m.drawSprite x y n =
      if n = 0 ∨ m.i + n ≤ 0x1000 then
        ({ m.setFlag 0 with display := (m.display.overlay (m.spriteOf x y n)).touch }.setFlag
          (m.display.hits (m.spriteOf x y n)).toUInt8).advance.finish
      else
        { m.setFlag 0 with display := m.display.overlay (m.spriteOf x y n) }.halt
          (.outsideMemory (max m.i 0x1000) 0xFFF) := by
  have hdisplay := drawRows_display m.memory (m.reg x).toNat (m.reg y).toNat hm.display hm.i.1 hn
  have hhit := drawRows_hit m.memory (m.reg x).toNat (m.reg y).toNat hm.display hm.i.1 hn
  have hfault := drawRows_fault m.memory (m.reg x).toNat (m.reg y).toNat m.display n hm.i.1
  rw [hm.memory_size, hm.memory_top] at hfault
  generalize hrows : drawRows m.memory (m.reg x).toNat (m.reg y).toNat m.i n m.display = rows
  obtain ⟨d, hit, fault⟩ := rows
  rw [hrows] at hdisplay hhit hfault
  -- The flag is cleared first, which is no matter to the rows.
  simp only [drawSprite, setFlag, setReg] at *
  by_cases h : n = 0 ∨ m.i + n ≤ 0x1000
  · rw [if_pos h] at hfault ⊢
    simp only [hrows, hfault, hdisplay, hhit]
    rfl
  · rw [if_neg h] at hfault ⊢
    simp only [hrows, hfault, hdisplay]
    rfl

/-- A sprite that lies in memory is drawn as a whole, and the flag says what it hit. -/
theorem drawSprite_of_fits {height : Fin 16} (h : ¬ m.Overreaches (.draw x y height)) :
    m.drawSprite x y height.val =
      ({ m.setFlag 0 with
        display := (m.display.overlay (m.spriteOf x y height.val)).touch }.setFlag
        (m.display.hits (m.spriteOf x y height.val)).toUInt8).advance.finish := by
  have hfits : height.val = 0 ∨ m.i + height.val ≤ 0x1000 := by
    unfold Overreaches at h
    omega
  rw [drawSprite_eq hm (by omega), if_pos hfits]

/-- A sprite that does not lie in memory is drawn as far as it does. -/
theorem drawSprite_of_overreaches {height : Fin 16} (h : m.Overreaches (.draw x y height)) :
    m.drawSprite x y height.val =
      { m.setFlag 0 with display := m.display.overlay (m.spriteOf x y height.val) }.halt
        (.outsideMemory (max m.i 0x1000) 0xFFF) := by
  have hout : ¬ (height.val = 0 ∨ m.i + height.val ≤ 0x1000) := by
    unfold Overreaches at h
    omega
  rw [drawSprite_eq hm (by omega), if_neg hout]

/-! ## Stores and loads -/

/-- The decimal digits of a register are stored where all three have a place. -/
theorem storeDecimalOf_of_fits (h : m.i + 2 ≤ 0xFFF) :
    m.storeDecimalOf x =
      { m with memory := m.memory.storing m.i (decimalDigits (m.reg x)) }.advance.finish := by
  have hsize := hm.memory_size
  have hlength : (decimalDigits (m.reg x)).length = 3 := rfl
  have heach := m.memory.writeEach_eq (decimalDigits (m.reg x)) hm.i.1
  rw [if_pos (by omega)] at heach
  simp only [storeDecimalOf, heach]

/-- The digits that have a place are stored before the first that has none is refused. -/
theorem storeDecimalOf_of_overreaches (h : 0xFFF < m.i + 2) :
    m.storeDecimalOf x =
      { m with memory := m.memory.storing m.i (decimalDigits (m.reg x)) }.halt
        (.outsideMemory (max m.i 0x1000) 0xFFF) := by
  have hsize := hm.memory_size
  have hlength : (decimalDigits (m.reg x)).length = 3 := rfl
  have hne : decimalDigits (m.reg x) ≠ [] := List.cons_ne_nil _ _
  have heach := m.memory.writeEach_eq (decimalDigits (m.reg x)) hm.i.1
  rw [if_neg (not_or.mpr ⟨hne, by omega⟩), hsize, hm.memory_top] at heach
  simp only [storeDecimalOf, heach]

/-- The index register stands in memory below its end. -/
theorem holds_i_iff : m.memory.Holds m.i ↔ m.i ≤ 0xFFF := by
  have hsize := hm.memory_size
  have := hm.i.1
  rw [Memory.holds_iff]
  omega

/-- Both ends of a block of registers are in memory exactly if its last byte is. -/
theorem holds_block_iff :
    m.memory.Holds m.i ∧ m.memory.Holds (m.i + (x.val + 1) - 1) ↔ m.i + x.val ≤ 0xFFF := by
  have hsize := hm.memory_size
  have := hm.i.1
  simp only [Memory.holds_iff]
  omega

/-- Registers are stored as a block that lies in memory. -/
theorem storeThrough_of_fits (h : m.i + x.val ≤ 0xFFF) :
    m.storeThrough x =
      { m with memory := m.memory.storing m.i (m.v.toArray.extract 0 (x.val + 1)).toList
        }.advance.finish := by
  have hsize := size_registersThrough m x
  have hholds := (holds_block_iff hm).mpr h
  rw [storeThrough, Memory.writeBlock_eq_ok fun _ => by rw [hsize]; exact hholds]

/-- A block of registers that does not lie in memory is not stored at all. -/
theorem storeThrough_of_overreaches (h : 0xFFF < m.i + x.val) :
    m.storeThrough x =
      m.halt (.outsideMemory (if m.i ≤ 0xFFF then m.i + x.val else m.i) 0xFFF) := by
  have hsize := size_registersThrough m x
  have hholds : ¬ (m.memory.Holds m.i ∧ m.memory.Holds (m.i + (x.val + 1) - 1)) :=
    mt (holds_block_iff hm).mp (by omega)
  have hwrite : m.memory.writeBlock m.i (m.v.toArray.extract 0 (x.val + 1)) = _ :=
    Memory.writeBlock_eq_error (by omega) (by rw [hsize]; exact hholds)
  have hlast : m.i + ((x.val + 1 : Nat) : Int) - 1 = m.i + x.val := by omega
  simp only [storeThrough, hwrite, hsize, hm.memory_top, holds_i_iff hm, hlast]

/-- Registers are loaded from a block that lies in memory, and the index moves behind it. -/
theorem loadThrough_of_fits (h : m.i + x.val ≤ 0xFFF) :
    m.loadThrough x =
      { m with
        v := Vector.ofFn fun r : Register =>
          if r ≤ x then m.memory.byteAt (m.i + r.val) else m.reg r
        i := (m.i + x.val + 1) % 0x10000 }.advance.finish := by
  have hholds := (holds_block_iff hm).mpr h
  have hv : (Vector.ofFn fun r : Register =>
      if r ≤ x then
        (m.memory.bytes.extract m.i.toNat (m.i + (x.val + 1)).toNat).getD r.val 0
      else m.reg r) =
      Vector.ofFn fun r : Register =>
        if r ≤ x then m.memory.byteAt (m.i + r.val) else m.reg r := by
    congr 1
    funext r
    split
    · rename_i hle
      exact Memory.getD_extract hm.i.1 (Nat.lt_succ_of_le hle)
    · rfl
  simp only [loadThrough, Memory.readBlock_eq_ok hholds.1 hholds.2, hv]

/-- A block that does not lie in memory is not loaded at all. -/
theorem loadThrough_of_overreaches (h : 0xFFF < m.i + x.val) :
    m.loadThrough x =
      m.halt (.outsideMemory (if m.i ≤ 0xFFF then m.i + x.val else m.i) 0xFFF) := by
  have hholds : ¬ (m.memory.Holds m.i ∧ m.memory.Holds (m.i + (x.val + 1) - 1)) :=
    mt (holds_block_iff hm).mp (by omega)
  have hlast : m.i + ((x.val : Int) + 1) - 1 = m.i + x.val := by omega
  simp only [loadThrough, Memory.readBlock_eq_error hholds, hm.memory_top, holds_i_iff hm, hlast]

/-! ## Calls, keys and timers -/

/-- A call is opened where there is room for one more. -/
theorem callTo_of_fits (h : m.stack.depth ≠ 16) (target : Int) :
    m.callTo target =
      { m with
        stack := { m.stack with calls := m.stack.calls ++ [m.pc] }
        pc := target }.finish := by
  have hroom : ¬ m.stack.limit ≤ m.stack.depth := by
    have := hm.depth
    rw [hm.limit]
    omega
  simp only [callTo, CallStack.push, if_neg hroom]

/-- A seventeenth call is refused. -/
theorem callTo_of_overreaches (h : m.stack.depth = 16) (target : Int) :
    m.callTo target = m.halt (.stackOverflow 16) := by
  have hfull : m.stack.push m.pc = .error (.stackOverflow 16) := by
    rw [CallStack.push, if_pos, hm.limit]
    rw [hm.limit, h]
    decide
  simp only [callTo, hfull]

omit hm in
/-- A return closes the newest call and moves on from its address. -/
theorem returnFromCall_of_fits {a : Int} (h : m.stack.calls.getLast? = some a) :
    m.returnFromCall =
      { m with
        stack := { m.stack with calls := m.stack.calls.dropLast }
        pc := a }.advance.finish := by
  simp only [returnFromCall, CallStack.pop, h]

omit hm in
/-- A return without a call is refused. -/
theorem returnFromCall_of_overreaches (h : m.stack.calls = []) :
    m.returnFromCall = m.halt .stackUnderflow := by
  simp only [returnFromCall, CallStack.pop, h, List.getLast?_nil]

omit hm in
/-- One of the sixteen keys is looked at, and the skip goes by it. -/
theorem skipOnKey_of_fits (h : (m.reg x).toNat ≤ 0xF) (wanted : Bool) :
    m.skipOnKey x wanted =
      (m.skipIf (m.keys[(m.reg x).toNat] == wanted)).finish := by
  have hheld : m.keys.held? (m.reg x) = some m.keys[(m.reg x).toNat] :=
    Vector.getElem?_eq_getElem _
  simp only [skipOnKey, hheld]

omit hm in
/-- A key with a larger number is refused. -/
theorem skipOnKey_of_overreaches (h : 0xF < (m.reg x).toNat) (wanted : Bool) :
    m.skipOnKey x wanted = m.halt (.noSuchKey (m.reg x)) := by
  have hheld : m.keys.held? (m.reg x) = none := Vector.getElem?_eq_none h
  simp only [skipOnKey, hheld]

/-- A delay is a byte, so it is taken as it is. -/
theorem readDelayInto_eq :
    m.readDelayInto x = (m.setReg x (UInt8.ofInt m.delay)).advance.finish := by
  simp only [readDelayInto, putReg, if_pos hm.delay]

/-! ## All instructions -/

/-- An instruction that overreaches faults, and leaves what it did up to then. -/
theorem exec_of_overreaches {i : Instruction} (h : m.Overreaches i) :
    m.exec i = (m.leftBy i).halt (m.overreachFault i) := by
  cases i with
  | ret => exact returnFromCall_of_overreaches h
  | call target => exact callTo_of_overreaches hm h _
  | skipHeld x => exact skipOnKey_of_overreaches h true
  | skipNotHeld x => exact skipOnKey_of_overreaches h false
  | draw x y height => exact drawSprite_of_overreaches hm h
  | storeDecimal x => exact storeDecimalOf_of_overreaches hm h
  | storeRegisters x => exact storeThrough_of_overreaches hm h
  | loadRegisters x => exact loadThrough_of_overreaches hm h
  | _ => exact h.elim

/-- An instruction that asks for nothing that is missing is completed. -/
theorem exec_of_fits {i : Instruction} (h : ¬ m.Overreaches i) : (m.exec i).fault = none := by
  cases i with
  | ret =>
    show m.returnFromCall.fault = none
    rw [returnFromCall_of_fits (List.getLast?_eq_some_getLast h)]
    rfl
  | call target =>
    show (m.callTo target.val).fault = none
    rw [callTo_of_fits hm h]
    rfl
  | skipHeld x =>
    show (m.skipOnKey x true).fault = none
    rw [skipOnKey_of_fits (Nat.not_lt.mp h)]
    rfl
  | skipNotHeld x =>
    show (m.skipOnKey x false).fault = none
    rw [skipOnKey_of_fits (Nat.not_lt.mp h)]
    rfl
  | draw x y height =>
    show (m.drawSprite x y height.val).fault = none
    rw [drawSprite_of_fits hm h]
    rfl
  | storeDecimal x =>
    show (m.storeDecimalOf x).fault = none
    rw [storeDecimalOf_of_fits hm (Int.not_lt.mp h)]
    rfl
  | storeRegisters x =>
    show (m.storeThrough x).fault = none
    rw [storeThrough_of_fits hm (Int.not_lt.mp h)]
    rfl
  | loadRegisters x =>
    show (m.loadThrough x).fault = none
    rw [loadThrough_of_fits hm (Int.not_lt.mp h)]
    rfl
  | waitKey x =>
    show (m.waitForKey x).fault = none
    unfold waitForKey
    split <;> rfl
  | readDelay x =>
    show (m.readDelayInto x).fault = none
    rw [readDelayInto_eq hm]
    rfl
  | _ => rfl

end Operations

end Chip8.Machine
