import Chip8.Proofs.Machine.Invariant

/-!
# Chip8.Proofs.Machine.Effect — what a completed instruction leaves

For each part of a machine there is a table of what the instructions make of it.
An instruction that a table does not list leaves the part as it was. `Machine.after`
puts the tables together, and `exec_eq_after` says that a completed instruction
leaves just that machine. So each later question about a completed step is a
question about one table.

Carries, borrows and shifted bits are set before the result. Where the flag is an
operand itself, the result is made from the new flag, and where it is the target,
the result stays (`flagFirst`).
-/

namespace Chip8.Machine

variable {m : Machine} {i : Instruction}

/-! ## Registers -/

/-- The registers after one of them was set. -/
def regWith (m : Machine) (x : Register) (byte : UInt8) (r : Register) : UInt8 :=
  if r = x then byte else m.reg r

/-- The registers after the flag was set, and then a register to what `f` makes of
two registers. -/
def flagFirst (m : Machine) (flag : UInt8) (x y : Register) (f : UInt8 → UInt8 → UInt8)
    (r : Register) : UInt8 :=
  let read := m.regWith flagRegister flag
  if r = x then f (read x) (read y) else read r

/-- One if a condition holds, else zero. -/
def flagOf (condition : Prop) [Decidable condition] : UInt8 := if condition then 1 else 0

/-- The registers after an instruction. -/
def registerAfter (m : Machine) : Instruction → Register → UInt8
  | .loadByte x byte => m.regWith x byte
  | .addByte x byte => m.regWith x (m.reg x + byte)
  | .load x y => m.regWith x (m.reg y)
  | .or x y => m.regWith x (m.reg x ||| m.reg y)
  | .and x y => m.regWith x (m.reg x &&& m.reg y)
  | .xor x y => m.regWith x (m.reg x ^^^ m.reg y)
  | .add x y =>
    m.flagFirst (flagOf (0xFF < (m.reg x).toNat + (m.reg y).toNat)) x y fun a b => a + b
  | .sub x y => m.flagFirst (flagOf (m.reg y < m.reg x)) x y fun a b => a - b
  | .subFrom x y => m.flagFirst (flagOf (m.reg y < m.reg x)) x y fun a b => b - a
  | .shiftRight x => m.flagFirst (m.reg x &&& 1) x x fun a _ => a >>> 1
  | .shiftLeft x => m.flagFirst (m.reg x &&& 0x80) x x fun a _ => a <<< 1
  | .random x byte => m.regWith x (UInt8.ofInt m.random.next &&& byte)
  | .draw x y height =>
    m.regWith flagRegister (flagOf (m.display.hits (m.spriteOf x y height.val) = true))
  | .readDelay x => m.regWith x (UInt8.ofInt m.delay)
  | .waitKey x =>
    match m.keys.lowestHeld? with
    | none => m.reg
    | some key => m.regWith x (UInt8.ofNat key.val)
  | .loadRegisters x => fun r => if r ≤ x then m.memory.byteAt (m.i + r.val) else m.reg r
  | _ => m.reg

/-- What a register holds after one of them was set. -/
theorem reg_setReg (m : Machine) (x : Register) (byte : UInt8) (r : Register) :
    (m.setReg x byte).reg r = m.regWith x byte r := by
  by_cases h : r = x
  · simp [reg, setReg, regWith, h]
  · have hne : x.val ≠ r.val := fun heq => h (Fin.ext heq.symm)
    simp [reg, setReg, regWith, h, hne]

theorem reg_ofFn (m : Machine) (f : Register → UInt8) (r : Register) :
    { m with v := Vector.ofFn f }.reg r = f r := by
  simp [reg]

/-- Registers are told apart by what they hold. -/
theorem v_eq_ofFn {f : Register → UInt8} (h : ∀ r, m.reg r = f r) : m.v = Vector.ofFn f := by
  apply Vector.ext
  intro k hk
  have hr : m.v[k] = f ⟨k, hk⟩ := h ⟨k, hk⟩
  simp [hr]

/-- A skip leaves the registers alone. -/
theorem reg_skipIf (m : Machine) (condition : Bool) (r : Register) :
    (m.skipIf condition).reg r = m.reg r := by
  unfold skipIf
  split <;> rfl

/-- A condition is the flag that it is set to. -/
theorem toUInt8_decide (condition : Prop) [Decidable condition] :
    (decide condition).toUInt8 = flagOf condition := by
  by_cases h : condition
  · simp only [flagOf, h, decide_true, if_true]
    rfl
  · simp only [flagOf, h, decide_false, if_false]
    rfl

/-- A sum is no byte exactly if one operand is more than is missing to the other. -/
theorem sub_lt_iff (a b : UInt8) : 0xFF - a < b ↔ 0xFF < a.toNat + b.toNat := by
  have ha := a.toNat_lt
  have hle : a ≤ 0xFF := UInt8.le_iff_toNat_le.mpr (Nat.le_of_lt_succ ha)
  rw [UInt8.lt_iff_toNat_lt, UInt8.toNat_sub_of_le _ _ hle]
  show 255 - a.toNat < b.toNat ↔ 255 < a.toNat + b.toNat
  omega

/-- Two registers are combined with the flag set before. -/
theorem reg_combine (m : Machine) (flag : UInt8) (x y : Register) (f : UInt8 → UInt8 → UInt8)
    (r : Register) : (m.combine flag x y f).reg r = m.flagFirst flag x y f r := by
  -- Both operands are read after the flag was set, so one that is the flag reads it.
  have hread (z : Register) : (m.setFlag flag).reg z = m.regWith flagRegister flag z :=
    m.reg_setReg flagRegister flag z
  show ((m.setFlag flag).setReg x (f ((m.setFlag flag).reg x) ((m.setFlag flag).reg y))).reg r = _
  rw [reg_setReg, regWith, hread, hread, hread]
  rfl

/-- A register is changed with the flag set before. -/
theorem reg_change (m : Machine) (flag : UInt8) (x : Register) (f : UInt8 → UInt8)
    (r : Register) : (m.change flag x f).reg r = m.flagFirst flag x x (fun a _ => f a) r := by
  have hread (z : Register) : (m.setFlag flag).reg z = m.regWith flagRegister flag z :=
    m.reg_setReg flagRegister flag z
  show ((m.setFlag flag).setReg x (f ((m.setFlag flag).reg x))).reg r = _
  rw [reg_setReg, regWith, hread, hread]
  rfl

/-- A sum is the result, and the carry is in the flag. -/
theorem reg_exec_add (m : Machine) (x y r : Register) :
    (m.exec (.add x y)).machine.reg r = m.registerAfter (.add x y) r := by
  show (m.combine (decide (0xFF - m.reg x < m.reg y)).toUInt8 x y (· + ·)).reg r = _
  rw [reg_combine, toUInt8_decide]
  simp only [sub_lt_iff]
  rfl

/-- A difference is the result, and the flag says that nothing was borrowed. -/
theorem reg_exec_sub (m : Machine) (x y r : Register) :
    (m.exec (.sub x y)).machine.reg r = m.registerAfter (.sub x y) r := by
  show (m.combine (decide (m.reg y < m.reg x)).toUInt8 x y (· - ·)).reg r = _
  rw [reg_combine, toUInt8_decide]
  rfl

/-- The same of the difference the other way round. -/
theorem reg_exec_subFrom (m : Machine) (x y r : Register) :
    (m.exec (.subFrom x y)).machine.reg r = m.registerAfter (.subFrom x y) r := by
  show (m.combine (decide (m.reg y < m.reg x)).toUInt8 x y fun a b => b - a).reg r = _
  rw [reg_combine, toUInt8_decide]
  rfl

/-! ## The other parts -/

/-- Memory after an instruction. -/
def memoryAfter (m : Machine) : Instruction → Memory
  | .storeDecimal x => m.memory.storing m.i (decimalDigits (m.reg x))
  | .storeRegisters x => m.memory.storing m.i (m.v.toArray.extract 0 (x.val + 1)).toList
  | _ => m.memory

/-- The open calls after an instruction. -/
def callsAfter (m : Machine) : Instruction → List Int
  | .call _ => m.stack.calls ++ [m.pc]
  | .ret => m.stack.calls.dropLast
  | _ => m.stack.calls

/-- A return closes the newest call and leads to the word after it. -/
theorem newest_of_ret (h : ¬ m.Overreaches .ret) :
    ∃ newest, m.stack.calls = m.callsAfter .ret ++ [newest] ∧ m.following .ret = newest + 2 := by
  have hopen : m.stack.calls ≠ [] := h
  refine ⟨m.stack.calls.getLast hopen, (List.dropLast_concat_getLast hopen).symm, ?_⟩
  show m.stack.calls.getLast?.getD 0 + 2 = _
  rw [List.getLast?_eq_some_getLast hopen]
  rfl

/-- The picture after an instruction. -/
def displayAfter (m : Machine) : Instruction → Display
  | .clear => m.display.clear
  | .draw x y height => (m.display.overlay (m.spriteOf x y height.val)).touch
  | _ => m.display

/-- The index register after an instruction. -/
def indexAfter (m : Machine) : Instruction → Int
  | .loadIndex target => target.val
  | .addIndex x => (m.i + (m.reg x).toNat) % 0x10000
  | .loadGlyph x => 0x50 + 5 * (m.reg x).toNat
  | .loadRegisters x => m.i + x.val + 1
  | _ => m.i

/-- The delay timer after an instruction, before it is counted down. -/
def delayAfter (m : Machine) : Instruction → Int
  | .setDelay x => (m.reg x).toNat
  | _ => m.delay

/-- The sound timer after an instruction, before it is counted down. -/
def soundAfter (m : Machine) : Instruction → Int
  | .setSound x => (m.reg x).toNat
  | _ => m.sound

/-- The random source after an instruction. -/
def randomAfter (m : Machine) : Instruction → RandomSource
  | .random _ _ => { m.random with drawn := m.random.drawn + 1 }
  | _ => m.random

/-- The machine after a completed instruction. -/
def after (m : Machine) (i : Instruction) : Machine :=
  { m with
    memory := m.memoryAfter i
    stack := { m.stack with calls := m.callsAfter i }
    display := m.displayAfter i
    v := Vector.ofFn (m.registerAfter i)
    i := m.indexAfter i
    pc := m.following i
    delay := m.delayAfter i
    sound := m.soundAfter i
    random := m.randomAfter i }

/-- A skip changes nothing but the counter. -/
theorem skipIf_eq (m : Machine) (condition : Bool) :
    m.skipIf condition =
      { m with v := (m.skipIf condition).v, pc := (m.skipIf condition).pc } := by
  unfold skipIf
  split <;> rfl

section

variable (hm : m.Bounded)
include hm

/-! ## Completed instructions -/

/-- A completed instruction leaves the registers that the table says. -/
theorem exec_reg (h : ¬ m.Overreaches i) (r : Register) :
    (m.exec i).machine.reg r = m.registerAfter i r := by
  -- Most instructions set one register, or none, and the others have a lemma of their own.
  cases i with
  | loadByte | addByte | load | or | and | xor | random => exact reg_setReg m _ _ r
  | add x y => exact m.reg_exec_add x y r
  | sub x y => exact m.reg_exec_sub x y r
  | subFrom x y => exact m.reg_exec_subFrom x y r
  | shiftRight x => exact m.reg_change _ x _ r
  | shiftLeft x => exact m.reg_change _ x _ r
  | skipEqByte | skipNeByte | skipEq | skipNe => exact reg_skipIf m _ r
  | skipHeld x =>
    show (m.skipOnKey x true).machine.reg r = m.reg r
    rw [skipOnKey_of_fits (Nat.not_lt.mp h)]
    exact reg_skipIf m _ r
  | skipNotHeld x =>
    show (m.skipOnKey x false).machine.reg r = m.reg r
    rw [skipOnKey_of_fits (Nat.not_lt.mp h)]
    exact reg_skipIf m _ r
  | draw x y height =>
    show (m.drawSprite x y height.val).machine.reg r = _
    rw [drawSprite_of_fits hm h]
    -- The flag is cleared first, and then set to what the sprite hits.
    show ((m.setReg flagRegister 0).setReg flagRegister _).reg r = _
    rw [reg_setReg, regWith, reg_setReg, registerAfter, regWith, regWith, ← toUInt8_decide,
      Bool.decide_eq_true]
    split <;> rfl
  | readDelay x =>
    show (m.readDelayInto x).machine.reg r = _
    rw [readDelayInto_eq hm]
    exact reg_setReg m _ _ r
  | waitKey x =>
    show (m.waitForKey x).machine.reg r = _
    cases hheld : m.keys.lowestHeld? with
    -- No key is held, so nothing was written.
    | none =>
      have hstays : m.waitForKey x = m.finish := by simp only [waitForKey, hheld]
      have hafter : m.registerAfter (.waitKey x) = m.reg := by simp only [registerAfter, hheld]
      rw [hstays, hafter]
      rfl
    | some key =>
      have htakes : m.waitForKey x = (m.setReg x (UInt8.ofNat key.val)).advance.finish := by
        simp only [waitForKey, hheld]
      have hafter : m.registerAfter (.waitKey x) = m.regWith x (UInt8.ofNat key.val) := by
        simp only [registerAfter, hheld]
      rw [htakes, hafter]
      exact reg_setReg m x _ r
  | loadRegisters x =>
    show (m.loadThrough x).machine.reg r = _
    rw [loadThrough_of_fits hm (Int.not_lt.mp h)]
    exact reg_ofFn m _ r
  | ret =>
    show m.returnFromCall.machine.reg r = m.reg r
    rw [returnFromCall_of_fits (List.getLast?_eq_some_getLast h)]
    rfl
  | call target =>
    show (m.callTo target.val).machine.reg r = m.reg r
    rw [callTo_of_fits hm h]
    rfl
  | storeDecimal x =>
    show (m.storeDecimalOf x).machine.reg r = m.reg r
    rw [storeDecimalOf_of_fits hm (Int.not_lt.mp h)]
    rfl
  | storeRegisters x =>
    show (m.storeThrough x).machine.reg r = m.reg r
    rw [storeThrough_of_fits hm (Int.not_lt.mp h)]
    rfl
  | _ => rfl

/-- But for the registers and the counter, a completed instruction leaves what the
tables say. -/
theorem exec_machine_eq (h : ¬ m.Overreaches i) :
    (m.exec i).machine =
      { m with
        memory := m.memoryAfter i
        stack := { m.stack with calls := m.callsAfter i }
        display := m.displayAfter i
        v := (m.exec i).machine.v
        i := m.indexAfter i
        pc := (m.exec i).machine.pc
        delay := m.delayAfter i
        sound := m.soundAfter i
        random := m.randomAfter i } := by
  -- Each instruction is opened by its equation, and the rest is the same on both sides.
  cases i with
  | skipEqByte x byte => exact skipIf_eq m (m.reg x == byte)
  | skipNeByte x byte => exact skipIf_eq m (m.reg x != byte)
  | skipEq x y => exact skipIf_eq m (m.reg x == m.reg y)
  | skipNe x y => exact skipIf_eq m (m.reg x != m.reg y)
  | skipHeld x =>
    have hexec : (m.exec (.skipHeld x)).machine = _ :=
      congrArg Progress.machine (skipOnKey_of_fits (Nat.not_lt.mp h) true)
    rw [hexec]
    exact skipIf_eq m _
  | skipNotHeld x =>
    have hexec : (m.exec (.skipNotHeld x)).machine = _ :=
      congrArg Progress.machine (skipOnKey_of_fits (Nat.not_lt.mp h) false)
    rw [hexec]
    exact skipIf_eq m _
  | ret =>
    have hexec : m.exec .ret = _ := returnFromCall_of_fits (List.getLast?_eq_some_getLast h)
    rw [hexec]
    rfl
  | call target =>
    have hexec : m.exec (.call target) = _ := callTo_of_fits hm h target.val
    rw [hexec]
    rfl
  | draw x y height =>
    have hexec : m.exec (.draw x y height) = _ := drawSprite_of_fits hm h
    rw [hexec]
    rfl
  | storeDecimal x =>
    have hexec : m.exec (.storeDecimal x) = _ := storeDecimalOf_of_fits hm (Int.not_lt.mp h)
    rw [hexec]
    rfl
  | storeRegisters x =>
    have hexec : m.exec (.storeRegisters x) = _ := storeThrough_of_fits hm (Int.not_lt.mp h)
    rw [hexec]
    rfl
  | loadRegisters x =>
    have hexec : m.exec (.loadRegisters x) = _ := loadThrough_of_fits hm (Int.not_lt.mp h)
    -- The block ends in memory, so the index is not cut back.
    have hi : (m.i + x.val + 1) % 0x10000 = m.i + x.val + 1 := by
      have hend : m.i + x.val ≤ 0xFFF := Int.not_lt.mp h
      have := hm.i.1
      omega
    rw [hexec, hi]
    rfl
  | readDelay x =>
    have hexec : m.exec (.readDelay x) = _ := readDelayInto_eq hm
    rw [hexec]
    rfl
  | waitKey x =>
    show (m.waitForKey x).machine =
      { m with v := (m.waitForKey x).machine.v, pc := (m.waitForKey x).machine.pc }
    unfold waitForKey
    split <;> rfl
  | _ => rfl

/-- A completed instruction leaves the machine that the tables describe. -/
theorem exec_eq_after (hpc : m.pc ≤ 0xFFE) (h : ¬ m.Overreaches i) :
    m.exec i = (m.after i).finish := by
  -- The registers and the counter come from their own lemmas, and the rest from the last one.
  have hv : (m.exec i).machine.v = (m.after i).v := v_eq_ofFn (exec_reg hm h)
  have hcounter : (m.exec i).machine.pc = (m.after i).pc := exec_pc hm hpc h
  have hmachine : (m.exec i).machine = m.after i := by
    rw [exec_machine_eq hm h, hv, hcounter]
    rfl
  rw [finish, ← hmachine, ← exec_of_fits hm h]

/-! ## Completed steps -/

omit hm in
/-- The tables do not look at the word in progress. -/
theorem after_latched (m : Machine) (i : Instruction) :
    m.latched.after i = { m.after i with opcodeAt := m.pc, opcode := m.wordAt m.pc } := by
  cases i <;> rfl

/-- Counting down takes one from each timer that runs, and asks for a beep if the
sound timer ran. -/
theorem Bounded.tick_eq :
    m.tick =
      { m with
        delay := max 0 (m.delay - 1)
        sound := max 0 (m.sound - 1)
        beeps := if 0 < m.sound then m.beeps + 1 else m.beeps } := by
  have := hm.delay
  have := hm.sound
  -- A timer that does not run is zero already.
  have hdelay : max 0 (m.delay - 1) = if 0 < m.delay then m.delay - 1 else m.delay := by
    split <;> omega
  have hsound : max 0 (m.sound - 1) = if 0 < m.sound then m.sound - 1 else m.sound := by
    split <;> omega
  rw [hdelay, hsound, Machine.tick, tickSound]
  -- Both timers run, or only one of them, or none.
  split
  · unfold tickDelay
    split <;> rfl
  · unfold tickDelay
    split <;> rfl

omit hm in
/-- The machine after a completed step. -/
def stepped (m : Machine) (i : Instruction) : Machine where
  memory := m.memoryAfter i
  stack := { m.stack with calls := m.callsAfter i }
  display := m.displayAfter i
  v := Vector.ofFn (m.registerAfter i)
  i := m.indexAfter i
  pc := m.following i
  delay := max 0 (m.delayAfter i - 1)
  sound := max 0 (m.soundAfter i - 1)
  keys := m.keys
  opcode := m.wordAt m.pc
  opcodeAt := m.pc
  random := m.randomAfter i
  beeps := if 0 < m.soundAfter i then m.beeps + 1 else m.beeps

omit hm in
/-- Memory after a completed step. -/
theorem stepped_memory (m : Machine) (i : Instruction) :
    (m.stepped i).memory = m.memoryAfter i := rfl

omit hm in
/-- The open calls after a completed step. -/
theorem stepped_calls (m : Machine) (i : Instruction) :
    (m.stepped i).stack.calls = m.callsAfter i := rfl

omit hm in
/-- The picture after a completed step. -/
theorem stepped_display (m : Machine) (i : Instruction) :
    (m.stepped i).display = m.displayAfter i := rfl

omit hm in
/-- The registers after a completed step. -/
theorem reg_stepped (m : Machine) (i : Instruction) (r : Register) :
    (m.stepped i).reg r = m.registerAfter i r :=
  reg_ofFn m (m.registerAfter i) r

/-- A step that asks for nothing that is missing leaves what the tables say. -/
theorem step_eq_stepped (hpc : m.pc ≤ 0xFFE) (hi : i.EncodedBy (m.wordAt m.pc))
    (h : ¬ m.Overreaches i) : m.step = (m.stepped i).finish := by
  have hexec : m.latched.exec i = (m.latched.after i).finish :=
    exec_eq_after hm.latched hpc (mt overreaches_latched.mp h)
  have hafter : (m.latched.after i).Bounded := by
    have hbounded := hm.latched.exec hpc i
    rw [hexec] at hbounded
    exact hbounded
  rw [step_of_fits hm hpc hi h, hexec]
  show (m.latched.after i).tick.finish = _
  rw [hafter.tick_eq, after_latched]
  rfl

/-- A completed step carries out the instruction that the counter stands at. -/
theorem Bounded.step_eq_of_completed (h : m.step.fault = none) :
    ∃ i : Instruction, m.pc ≤ 0xFFE ∧ i.EncodedBy (m.wordAt m.pc) ∧ ¬ m.Overreaches i ∧
      m.step.machine = m.stepped i := by
  obtain ⟨i, hpc, hi, hfits⟩ := hm.fits_of_completed h
  refine ⟨i, hpc, hi, hfits, ?_⟩
  rw [step_eq_stepped hm hpc hi hfits]
  rfl

/-- A completed step leaves what the tables say of the instruction at the counter. -/
theorem Bounded.step_machine_eq (hi : i.EncodedBy (m.wordAt m.pc)) (h : m.step.fault = none) :
    m.step.machine = m.stepped i := by
  obtain ⟨j, -, hj, -, hstep⟩ := hm.step_eq_of_completed h
  -- A word encodes one instruction only, so it is this one.
  have hsome : ∃ j : Instruction, j.EncodedBy (m.wordAt m.pc) ∧ m.step.machine = m.stepped j :=
    ⟨j, hj, hstep⟩
  exact (Instruction.exists_encodedBy_iff hi).mp hsome

end

/-! ## Steps through a program -/

/-- The machine stands at the address `a` of a program and has these calls open. -/
structure StandsIn (program : Array UInt8) (a : Int) (calls : List Int) (m : Machine) : Prop where
  reachable : m.Reachable
  memory : m.memory = (programmed program).memory
  pc : m.pc = a
  calls : m.stack.calls = calls

variable {program : Array UInt8} {a : Int} {calls : List Int}

/-- A new machine with a program stands at its first word. -/
theorem standsIn_programmed (h : program.size ≤ programRoom) :
    StandsIn program 0x200 [] (programmed program) where
  reachable := reachable_programmed program
  memory := rfl
  pc := by
    rw [programmed_eq h]
    rfl
  calls := by
    rw [programmed_eq h]
    rfl

/-- An instruction that stores nothing leads to where the tables say. -/
theorem StandsIn.step (h : StandsIn program a calls m) (ha : a ≤ 0xFFE)
    (hi : i.EncodedBy ((programmed program).wordAt a)) (hfits : ¬ m.Overreaches i)
    (hmemory : m.memoryAfter i = m.memory) :
    m.step.fault = none ∧ m.step.machine.i = m.indexAfter i ∧
      StandsIn program (m.following i) (m.callsAfter i) m.step.machine := by
  have hpc : m.pc ≤ 0xFFE := by
    rw [h.pc]
    exact ha
  have hword : i.EncodedBy (m.wordAt m.pc) := by
    rw [h.pc, wordAt_congr h.memory]
    exact hi
  have hstep := step_eq_stepped h.reachable.bounded hpc hword hfits
  refine ⟨congrArg Progress.fault hstep, ?_, h.reachable.perform .step, ?_, ?_, ?_⟩
  · rw [hstep]
    rfl
  · rw [hstep]
    exact (m.stepped_memory i).trans (hmemory.trans h.memory)
  · rw [hstep]
    rfl
  · rw [hstep]
    rfl

end Chip8.Machine
