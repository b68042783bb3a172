import Chip8.Proofs.Machine.Effect
import Chip8.Proofs.Machine.Faulting

/-!
# Chip8.Proofs.Machine.Counter — the law of the program counter

Every instruction that is completed moves the counter once. `Machine.CounterLaw`
says where to, instruction by instruction and in plain sums, and
`counter_of_completed` that each completed step of a machine obeys it.

Only `jumpFrom` and the last words of memory lead beyond memory. The step after
one that does finds no word there.
-/

namespace Chip8.Machine

variable {m : Machine} {i : Instruction}

/-- The address `a` is where an instruction leads. -/
def CounterLaw (m : Machine) (a : Int) : Instruction → Prop
  | .skipEqByte x byte => a = if m.reg x = byte then m.pc + 4 else m.pc + 2
  | .skipNeByte x byte => a = if m.reg x ≠ byte then m.pc + 4 else m.pc + 2
  | .skipEq x y => a = if m.reg x = m.reg y then m.pc + 4 else m.pc + 2
  | .skipNe x y => a = if m.reg x ≠ m.reg y then m.pc + 4 else m.pc + 2
  | .skipHeld x => a = if m.keys.held? (m.reg x) = some true then m.pc + 4 else m.pc + 2
  | .skipNotHeld x => a = if m.keys.held? (m.reg x) = some false then m.pc + 4 else m.pc + 2
  | .jump target | .call target => a = target.val
  | .jumpFrom target => a = target.val + (m.reg offsetRegister).toNat
  | .ret => ∃ older newest, m.stack.calls = older ++ [newest] ∧ a = newest + 2
  | .waitKey _ =>
    ((∀ key : Key, m.keys.get key = false) → a = m.pc) ∧
      ((∃ key : Key, m.keys.get key = true) → a = m.pc + 2)
  | _ => a = m.pc + 2

theorem afterSkip_beq {α : Type} [BEq α] [LawfulBEq α] [DecidableEq α] (m : Machine) (a b : α) :
    m.afterSkip (a == b) = if a = b then m.pc + 4 else m.pc + 2 := by
  by_cases h : a = b <;> simp [afterSkip, h]

theorem afterSkip_bne {α : Type} [BEq α] [LawfulBEq α] [DecidableEq α] (m : Machine) (a b : α) :
    m.afterSkip (a != b) = if a ≠ b then m.pc + 4 else m.pc + 2 := by
  by_cases h : a = b <;> simp [afterSkip, h]

/-- What follows an instruction that does not overreach is where the law leads. -/
theorem counterLaw_following (h : ¬ m.Overreaches i) : m.CounterLaw (m.following i) i := by
  cases i with
  | skipEqByte x byte => exact m.afterSkip_beq (m.reg x) byte
  | skipNeByte x byte => exact m.afterSkip_bne (m.reg x) byte
  | skipEq x y => exact m.afterSkip_beq (m.reg x) (m.reg y)
  | skipNe x y => exact m.afterSkip_bne (m.reg x) (m.reg y)
  | skipHeld x => exact m.afterSkip_beq (m.keys.held? (m.reg x)) (some true)
  | skipNotHeld x => exact m.afterSkip_beq (m.keys.held? (m.reg x)) (some false)
  | ret =>
    obtain ⟨newest, hcalls, hpc⟩ := newest_of_ret h
    exact ⟨_, newest, hcalls, hpc⟩
  | waitKey x =>
    constructor
    · -- Without a held key the word stays, and with one it is left.
      intro hnone
      show (if m.keys.lowestHeld?.isSome then m.pc + 2 else m.pc) = m.pc
      rw [Keypad.lowestHeld?_eq_none_iff.mpr hnone]
      rfl
    · rintro ⟨key, hheld⟩
      show (if m.keys.lowestHeld?.isSome then m.pc + 2 else m.pc) = m.pc + 2
      rw [if_pos]
      rw [Option.isSome_iff_ne_none, ne_eq, Keypad.lowestHeld?_eq_none_iff]
      intro hnone
      exact Bool.eq_false_iff.mp (hnone key) hheld
  | _ => rfl

/-! ## A program that stores over itself -/

/-- The second instruction stores four registers over the whole program. -/
def selfStoring : Array UInt8 := #[0xA2, 0x00, 0xF3, 0x55]

/-- The machine that is about to store. -/
def aboutToStore : Machine := (programmed selfStoring).performAll [.step]

/-- To set the index of a machine leads to the next word, with the index set. -/
theorem StandsIn.loadIndex {program : Array UInt8} {a : Int} {calls : List Int}
    (h : StandsIn program a calls m) (target : Fin 4096) (ha : a ≤ 0xFFE)
    (hi : (Instruction.loadIndex target).EncodedBy ((programmed program).wordAt a)) :
    m.step.machine.i = target.val ∧ StandsIn program (a + 2) calls m.step.machine := by
  obtain ⟨-, hindex, hleft⟩ := h.step ha hi id rfl
  refine ⟨hindex, ?_⟩
  have hpc : m.following (.loadIndex target) = a + 2 := congrArg (· + 2) h.pc
  have hcalls : m.callsAfter (.loadIndex target) = calls := h.calls
  rw [hpc, hcalls] at hleft
  exact hleft

/-- It stands at its second word, with the index at the first. -/
theorem aboutToStore_stands :
    aboutToStore.i = 0x200 ∧ StandsIn selfStoring 0x202 [] aboutToStore := by
  have hroom : selfStoring.size ≤ programRoom := by decide
  have hword : (programmed selfStoring).wordAt 0x200 = 0xA200 :=
    wordAt_programmed (k := 0) hroom rfl rfl
  -- The numbers are settled before the machines are compared, which would run them.
  have htarget : ((0x200 : Fin 4096).val : Int) = 0x200 := rfl
  have hnext : (0x200 : Int) + 2 = 0x202 := rfl
  obtain ⟨hindex, hleft⟩ := (standsIn_programmed hroom).loadIndex 0x200 (by decide) hword
  rw [htarget] at hindex
  rw [hnext] at hleft
  rw [aboutToStore, performAll_step, performAll_nil]
  exact ⟨hindex, hleft⟩

theorem reachable_aboutToStore : aboutToStore.Reachable := aboutToStore_stands.2.reachable

/-- Its next word stores four registers. -/
theorem aboutToStore_encodes :
    (Instruction.storeRegisters 3).EncodedBy (aboutToStore.wordAt aboutToStore.pc) := by
  have hroom : selfStoring.size ≤ programRoom := by decide
  have hword : (programmed selfStoring).wordAt 0x202 = 0xF355 :=
    wordAt_programmed (k := 2) hroom rfl rfl
  obtain ⟨-, hstands⟩ := aboutToStore_stands
  rw [hstands.pc, wordAt_congr hstands.memory, hword]
  rfl

/-- There is room for them, so the step is completed. -/
theorem aboutToStore_completes : aboutToStore.step.fault = none := by
  obtain ⟨hindex, hstands⟩ := aboutToStore_stands
  have hpc : aboutToStore.pc ≤ 0xFFE := by
    rw [hstands.pc]
    decide
  have hfits : ¬ aboutToStore.Overreaches (.storeRegisters 3) := by
    show ¬ 0xFFF < aboutToStore.i + 3
    rw [hindex]
    decide
  rw [step_eq_stepped hstands.reachable.bounded hpc aboutToStore_encodes hfits]
  rfl

/-! ## All completed steps -/

/-- A completed step moves the counter as the law says, without ever being cut back.
If this leads beyond the last word of memory, then the next step faults. -/
theorem counter_of_completed (h : m.Reachable) (hdone : m.step.fault = none) :
    (∃ i : Instruction, i.EncodedBy (m.wordAt m.pc) ∧ m.CounterLaw m.step.machine.pc i) ∧
      (0xFFE < m.step.machine.pc →
        m.step.machine.step.fault.map Fault.kind = some .outOfBounds) := by
  have hm := h.bounded
  constructor
  · obtain ⟨i, -, hi, hfits, hstep⟩ := hm.step_eq_of_completed hdone
    refine ⟨i, hi, ?_⟩
    rw [hstep]
    exact counterLaw_following hfits
  · intro hbeyond
    -- Beyond the last word a step is refused before it fetches anything.
    exact fault_kind_of_beyond hm.step hbeyond

/-- Storing over the word that stores does not keep the counter from moving on. -/
theorem aboutToStore_moves_on : aboutToStore.step.machine.pc = 0x204 := by
  obtain ⟨hlaw, -⟩ := counter_of_completed reachable_aboutToStore aboutToStore_completes
  have hmoved := (Instruction.exists_encodedBy_iff aboutToStore_encodes).mp hlaw
  have hpc : aboutToStore.step.machine.pc = aboutToStore.pc + 2 := hmoved
  have hnext : (0x202 : Int) + 2 = 0x204 := rfl
  rw [hpc, aboutToStore_stands.2.pc, hnext]

end Chip8.Machine
