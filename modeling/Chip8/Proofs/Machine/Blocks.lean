import Chip8.Proofs.Machine.Changes
import Chip8.Proofs.Machine.Drawing

/-!
# Chip8.Proofs.Machine.Blocks — registers on their way to memory and back

`FX55` stores the registers from `V0` to `VX` from the index on, and `FX65` loads them from
there. Only the load moves the index, so a program has to set the index again before it
loads what it stored:

* `CarriesOut` — what an instruction comes to, by itself or in a step that finds its word.
* `CarriesOut.of_fits` and `CarriesOut.of_overreaches` — it does what the tables of
  `Machine.after` say, or it leaves all but the word in progress as it was.
* `KeepsBlock` — the bytes that the registers were stored in are the same on two machines.

Nothing else is asked of what happens between the store and the load. So
`blocks_go_there_and_back` speaks of any two machines within the bounds of a running one:
operations keep these, and so do registers and an index that are written from outside.
-/

namespace Chip8.Machine

variable {m m' : Machine} {i : Instruction} {x : Register} {p : Progress}

/-! ## Carrying out an instruction -/

/-- What an instruction comes to: it is carried out by itself, or in a step that finds its
word at the counter. -/
inductive CarriesOut (m : Machine) (i : Instruction) : Progress → Prop
  | exec : m.CarriesOut i (m.exec i)
  | step (hpc : m.pc ≤ 0xFFE) (hi : i.EncodedBy (m.wordAt m.pc)) : m.CarriesOut i m.step

/-- The machines differ at most in the word in progress and in its address. -/
def SameButWord (m m' : Machine) : Prop :=
  m' = { m with opcode := m'.opcode, opcodeAt := m'.opcodeAt }

/-- An instruction that asks for nothing that is missing is completed, in either way. -/
theorem CarriesOut.of_fits (h : m.CarriesOut i p) (hm : m.Bounded) (hfits : ¬ m.Overreaches i) :
    p.fault = none ∧ p.machine.memory = m.memoryAfter i ∧ p.machine.i = m.indexAfter i ∧
      ∀ r, p.machine.reg r = m.registerAfter i r := by
  cases h with
  | exec =>
    refine ⟨exec_of_fits hm hfits, ?_, ?_, exec_reg hm hfits⟩
    · rw [exec_machine_eq hm hfits]
    · rw [exec_machine_eq hm hfits]
  | step hpc hi =>
    rw [step_eq_stepped hm hpc hi hfits]
    exact ⟨rfl, m.stepped_memory i, rfl, m.reg_stepped i⟩

/-- An instruction that overreaches and leaves nothing behind changes at most the word in
progress, in either way. -/
theorem CarriesOut.of_overreaches (h : m.CarriesOut i p) (hm : m.Bounded)
    (hover : m.Overreaches i) (hleft : ∀ m : Machine, m.leftBy i = m) :
    p.fault ≠ none ∧ m.SameButWord p.machine := by
  cases h with
  | exec =>
    rw [exec_of_overreaches hm hover, hleft]
    exact ⟨Option.some_ne_none _, rfl⟩
  | step hpc hi =>
    rw [step_of_overreaches hm hpc hi hover, hleft]
    exact ⟨Option.some_ne_none _, rfl⟩

/-- Such an instruction is completed exactly if it asks for nothing that is missing. -/
theorem CarriesOut.completed_iff (h : m.CarriesOut i p) (hm : m.Bounded)
    (hleft : ∀ m : Machine, m.leftBy i = m) :
    (p.fault = none ↔ ¬ m.Overreaches i) ∧ (p.fault ≠ none → m.SameButWord p.machine) := by
  by_cases hover : m.Overreaches i
  · obtain ⟨hfault, hsame⟩ := h.of_overreaches hm hover hleft
    exact ⟨⟨fun hnone => absurd hnone hfault, fun hnot => absurd hover hnot⟩, fun _ => hsame⟩
  · obtain ⟨hnone, -⟩ := h.of_fits hm hover
    exact ⟨⟨fun _ => hover, fun _ => hnone⟩, fun hfault => absurd hnone hfault⟩

/-! ## Stores and loads -/

/-- The bytes from the address `a` on, one for each register up to `VX`, are the same. -/
def KeepsBlock (m : Machine) (a : Int) (x : Register) (m' : Machine) : Prop :=
  ∀ r ≤ x, m'.memory.byteAt (a + r.val) = m.memory.byteAt (a + r.val)

/-- Each register that was stored is found in its place. -/
theorem byteAt_memoryAfter (hm : m.Bounded) (hfits : m.i + x.val ≤ 0xFFF) {r : Register}
    (hr : r ≤ x) : (m.memoryAfter (.storeRegisters x)).byteAt (m.i + r.val) = m.reg r := by
  have hcompletes : ¬ m.Overreaches (.storeRegisters x) := Int.not_lt.mpr hfits
  exact (memoryChange_memoryAfter hm hcompletes).byteAt_register hr

/-- A load takes the registers up to `VX` from their places and leaves the others alone. -/
theorem registerAfter_load (m : Machine) (x : Register) :
    (∀ r ≤ x, m.registerAfter (.loadRegisters x) r = m.memory.byteAt (m.i + r.val)) ∧
      ∀ r, x < r → m.registerAfter (.loadRegisters x) r = m.reg r :=
  ⟨fun _ hr => if_pos hr, fun _ hr => if_neg (Fin.not_le.mpr hr)⟩

/-- Registers that hold what stands in their places are stored without a change. -/
theorem memoryAfter_eq_self (hm : m.Bounded)
    (h : ∀ r ≤ x, m.reg r = m.memory.byteAt (m.i + r.val)) :
    m.memoryAfter (.storeRegisters x) = m.memory := by
  -- Each byte that would be laid is the one that is there.
  refine Memory.storing_eq_self hm.i.1 fun k hk => ?_
  rw [Array.length_toList, size_registersThrough] at hk
  have hlt : k < 16 := by omega
  have hregister : m.reg ⟨k, hlt⟩ = m.memory.byteAt (m.i + k) :=
    h ⟨k, hlt⟩ (Nat.le_of_lt_succ hk)
  rw [← hregister]
  simp [reg]

/-- What was stored is loaded again, if its bytes are still there and the index points at
them. -/
theorem CarriesOut.load_stored {stored loaded : Progress}
    (hstore : m.CarriesOut (.storeRegisters x) stored) (hm : m.Bounded)
    (hload : m'.CarriesOut (.loadRegisters x) loaded) (hm' : m'.Bounded)
    (hfits : m.i + x.val ≤ 0xFFF) (hindex : m'.i = m.i)
    (hkeeps : stored.machine.KeepsBlock m.i x m') :
    loaded.fault = none ∧ (∀ r ≤ x, loaded.machine.reg r = m.reg r) ∧
      (∀ r, x < r → loaded.machine.reg r = m'.reg r) ∧ loaded.machine.i = m.i + x.val + 1 := by
  obtain ⟨-, hmemory, -, -⟩ := hstore.of_fits hm (Int.not_lt.mpr hfits)
  have hfits' : ¬ m'.Overreaches (.loadRegisters x) := by
    show ¬ 0xFFF < m'.i + x.val
    omega
  obtain ⟨hdone, -, hmoved, hregisters⟩ := hload.of_fits hm' hfits'
  obtain ⟨hlow, hhigh⟩ := m'.registerAfter_load x
  refine ⟨hdone, fun r hr => ?_, fun r hr => ?_, ?_⟩
  · -- The registers up to the last one come from the block, and the block is what they were.
    rw [hregisters, hlow r hr, hindex, hkeeps r hr, hmemory, byteAt_memoryAfter hm hfits hr]
  · rw [hregisters, hhigh r hr]
  · rw [hmoved, ← hindex]
    rfl

/-- What was loaded is stored where it came from without a change. -/
theorem CarriesOut.store_loaded {stored loaded : Progress}
    (hload : m.CarriesOut (.loadRegisters x) loaded) (hm : m.Bounded)
    (hstore : m'.CarriesOut (.storeRegisters x) stored) (hm' : m'.Bounded)
    (hfits : m.i + x.val ≤ 0xFFF) (hindex : m'.i = m.i)
    (hregisters : ∀ r ≤ x, m'.reg r = loaded.machine.reg r)
    (hmemory : m'.memory = loaded.machine.memory) :
    stored.fault = none ∧ stored.machine.memory = m.memory := by
  obtain ⟨-, hleft, -, hloaded⟩ := hload.of_fits hm (Int.not_lt.mpr hfits)
  obtain ⟨hlow, -⟩ := m.registerAfter_load x
  -- Loading does not touch memory.
  have hsame : m'.memory = m.memory := hmemory.trans hleft
  have hfits' : ¬ m'.Overreaches (.storeRegisters x) := by
    show ¬ 0xFFF < m'.i + x.val
    omega
  obtain ⟨hdone, hstored, -, -⟩ := hstore.of_fits hm' hfits'
  refine ⟨hdone, ?_⟩
  rw [hstored, memoryAfter_eq_self hm' fun r hr => ?_, hsame]
  rw [hregisters r hr, hloaded, hlow r hr, hsame, hindex]

/-! ## A program that stores two registers -/

/-- Sets a register and the index, and then stores two registers. -/
def keeping : Array UInt8 := #[0x61, 0x22, 0xA3, 0x00, 0xF1, 0x55]

/-- The machine that is about to store. -/
def aboutToKeep : Machine := (programmed keeping).performAll [.step, .step]

/-- It has a byte in a register, the index behind the program, and stands at its last word. -/
theorem aboutToKeep_stands :
    aboutToKeep.reg 1 = 0x22 ∧ aboutToKeep.i = 0x300 ∧ StandsIn keeping 0x204 [] aboutToKeep := by
  have hroom : keeping.size ≤ programRoom := by decide
  have hset : (Instruction.loadByte 1 0x22).EncodedBy ((programmed keeping).wordAt 0x200) :=
    wordAt_programmed (k := 0) hroom rfl rfl
  have hpoint : (Instruction.loadIndex 0x300).EncodedBy
      ((programmed keeping).wordAt (0x200 + 2)) :=
    wordAt_programmed (k := 2) hroom rfl rfl
  have htarget : ((0x300 : Fin 4096).val : Int) = 0x300 := rfl
  have hnext : (0x200 : Int) + 2 + 2 = 0x204 := rfl
  obtain ⟨hregister, hindex, -, hleft⟩ := (standsIn_programmed hroom).sets (by decide) hset hpoint
  rw [htarget] at hindex
  rw [hnext] at hleft
  rw [aboutToKeep, performAll_step, performAll_step, performAll_nil]
  exact ⟨hregister, hindex, hleft⟩

/-- It stores in its next step. -/
theorem aboutToKeep_carriesOut :
    aboutToKeep.CarriesOut (.storeRegisters 1) aboutToKeep.step := by
  have hroom : keeping.size ≤ programRoom := by decide
  have hword : (programmed keeping).wordAt 0x204 = 0xF155 :=
    wordAt_programmed (k := 4) hroom rfl rfl
  obtain ⟨-, -, hstands⟩ := aboutToKeep_stands
  refine .step ?_ ?_
  · rw [hstands.pc]
    decide
  · rw [hstands.pc, wordAt_congr hstands.memory, hword]
    rfl

/-! ## All transfers -/

/-- Registers up to `VX` that are stored and loaded, on machines within the bounds of a
running one. Each of the two words may be carried out by itself or by a step:

* a store is completed and leaves the index alone. If later the index is what it was, and
  the bytes of the block are still there, then a load gives these registers what they held
  before the store, leaves the others alone and moves the index past the block;
* a load is completed, and if then the index is set back, a store leaves all memory as it
  was before the load;
* with the same index, the two are completed under the same condition, and either changes
  nothing but the word in progress if it is not.

Every machine to which operations lead is within these bounds (`Reachable.bounded`), and so
is one whose registers were overwritten from outside. -/
theorem blocks_go_there_and_back (hm : m.Bounded) (x : Register) :
    (m.i + x.val ≤ 0xFFF → ∀ stored, m.CarriesOut (.storeRegisters x) stored →
      stored.fault = none ∧ stored.machine.i = m.i ∧
        ∀ (m' : Machine) (loaded : Progress), m'.Bounded → m'.i = m.i →
          stored.machine.KeepsBlock m.i x m' → m'.CarriesOut (.loadRegisters x) loaded →
            loaded.fault = none ∧ (∀ r ≤ x, loaded.machine.reg r = m.reg r) ∧
              (∀ r, x < r → loaded.machine.reg r = m'.reg r) ∧
              loaded.machine.i = m.i + x.val + 1) ∧
    (m.i + x.val ≤ 0xFFF → ∀ loaded, m.CarriesOut (.loadRegisters x) loaded →
      loaded.fault = none ∧
        ∀ (m' : Machine) (stored : Progress), m'.Bounded → m'.i = m.i →
          (∀ r ≤ x, m'.reg r = loaded.machine.reg r) → m'.memory = loaded.machine.memory →
          m'.CarriesOut (.storeRegisters x) stored →
            stored.fault = none ∧ stored.machine.memory = m.memory) ∧
    ∀ (m' : Machine) (stored loaded : Progress), m'.Bounded → m'.i = m.i →
      m.CarriesOut (.storeRegisters x) stored → m'.CarriesOut (.loadRegisters x) loaded →
        ((stored.fault = none ↔ m.i + x.val ≤ 0xFFF) ∧
            (loaded.fault = none ↔ m.i + x.val ≤ 0xFFF)) ∧
          (stored.fault ≠ none → m.SameButWord stored.machine) ∧
          (loaded.fault ≠ none → m'.SameButWord loaded.machine) := by
  refine ⟨fun hfits stored hstore => ?_, fun hfits loaded hload => ?_, ?_⟩
  · obtain ⟨hdone, -, hindex, -⟩ := hstore.of_fits hm (Int.not_lt.mpr hfits)
    refine ⟨hdone, hindex, fun m' loaded hm' hback hkeeps hload => ?_⟩
    exact hstore.load_stored hm hload hm' hfits hback hkeeps
  · obtain ⟨hdone, -⟩ := hload.of_fits hm (Int.not_lt.mpr hfits)
    refine ⟨hdone, fun m' stored hm' hback hregisters hmemory hstore => ?_⟩
    exact hload.store_loaded hm hstore hm' hfits hback hregisters hmemory
  · -- Both are completed if the block ends in memory, which the index decides.
    intro m' stored loaded hm' hindex hstore hload
    obtain ⟨hstores, hsame⟩ := hstore.completed_iff hm fun _ => rfl
    obtain ⟨hloads, hsame'⟩ := hload.completed_iff hm' fun _ => rfl
    refine ⟨⟨hstores.trans Int.not_lt, hloads.trans ?_⟩, hsame, hsame'⟩
    rw [← hindex]
    exact Int.not_lt

/-- All registers hold the same byte. -/
def flooded (m : Machine) (byte : UInt8) : Machine := { m with v := Vector.replicate 16 byte }

theorem flooded_reg (m : Machine) (byte : UInt8) (r : Register) :
    (m.flooded byte).reg r = byte := by
  simp [flooded, reg]

/-- Overwriting the registers keeps the bounds, the index and what was stored. -/
theorem Bounded.flooded (hm : m.Bounded) (byte : UInt8) (a : Int) (x : Register) :
    (m.flooded byte).Bounded ∧ (m.flooded byte).i = m.i ∧ m.KeepsBlock a x (m.flooded byte) :=
  ⟨hm.setV _, rfl, fun _ _ => rfl⟩

/-- Two registers come back after all sixteen were overwritten, and the others do not. -/
theorem aboutToKeep_brings_back :
    aboutToKeep.step.fault = none ∧ aboutToKeep.step.machine.i = 0x300 ∧
      let loaded := ((aboutToKeep.step.machine.flooded 0xFF).exec (.loadRegisters 1)).machine
      loaded.reg 1 = 0x22 ∧ loaded.reg 2 = 0xFF ∧ loaded.i = 0x302 := by
  obtain ⟨hregister, hindex, hstands⟩ := aboutToKeep_stands
  have hm := hstands.reachable.bounded
  have hfits : aboutToKeep.i + ((1 : Register).val : Int) ≤ 0xFFF := by
    rw [hindex]
    decide
  obtain ⟨hgoes, -, -⟩ := blocks_go_there_and_back hm 1
  obtain ⟨hdone, hstill, hreturns⟩ := hgoes hfits _ aboutToKeep_carriesOut
  obtain ⟨hbounded, hsame, hkeeps⟩ := hm.step.flooded 0xFF aboutToKeep.i 1
  obtain ⟨-, hlow, hhigh, hmoved⟩ := hreturns _ _ hbounded (hsame.trans hstill) hkeeps .exec
  have hpast : (0x300 : Int) + ((1 : Register).val : Int) + 1 = 0x302 := rfl
  refine ⟨hdone, hstill.trans hindex, ?_, ?_, ?_⟩
  · rw [hlow 1 (by decide), hregister]
  · rw [hhigh 2 (by decide), flooded_reg]
  · rw [hmoved, hindex, hpast]

end Chip8.Machine
