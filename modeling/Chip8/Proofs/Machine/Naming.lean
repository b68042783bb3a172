import Chip8.Proofs.Instruction.Assembly
import Chip8.Proofs.Machine.Faulting
import Chip8.Proofs.Machine.Unseen

/-!
# Chip8.Proofs.Machine.Naming — what a traced text says about a word

A live trace shows the text of an instruction, and not all of its word: the last digit of
`5XY_` and `9XY_` and the second register of both shifts are left out. `same_text_same_result`
says that nothing else is. Two words with the same text are words of the same instruction,
since a mnemonic determines its instruction. And carrying out an instruction looks neither at
its word, nor at the random numbers but for the next one (`execute_withWord`). So the two words
come to the same on every machine.
-/

namespace Chip8.Machine

open Instruction (decode?)

variable {m : Machine} {word other : Int} {text : Text} {random random' : RandomSource}
  {i : Instruction}

/-! ## What is shown for a word -/

/-- A live trace shows this text for the word, on some machine. -/
def ShownAs (word : Int) (text : Text) : Prop :=
  ∃ m : Machine, m.opcode = word ∧ m.executeLine? = some (m.traceLine text)

/-- What stands before the text in a trace line is the same for every text. -/
theorem traceLine_injective (m : Machine) : Function.Injective m.traceLine := by
  intro t u h
  exact List.append_cancel_left h

/-- The text is the mnemonic of the instruction, on whatever machine it is shown. -/
theorem shownAs_iff :
    ShownAs word text ↔ ∃ i, decode? word = some i ∧ text = Text.ofString i.mnemonic := by
  constructor
  · rintro ⟨m, rfl, hline⟩
    obtain ⟨i, hi, htext⟩ := Option.map_eq_some_iff.mp hline
    exact ⟨i, hi, (m.traceLine_injective htext).symm⟩
  · rintro ⟨i, hi, rfl⟩
    refine ⟨{ fresh (.ofList []) with opcode := word }, rfl, ?_⟩
    exact Option.map_eq_some_iff.mpr ⟨i, hi, rfl⟩

/-- Words with the same text are words of the same instruction. -/
theorem ShownAs.exists_instruction (hword : ShownAs word text) (hother : ShownAs other text) :
    ∃ i, decode? word = some i ∧ decode? other = some i := by
  obtain ⟨i, hi, hmnemonic⟩ := shownAs_iff.mp hword
  obtain ⟨j, hj, hmnemonic'⟩ := shownAs_iff.mp hother
  have hsame : i.mnemonic = j.mnemonic := Text.ofString_injective (hmnemonic.symm.trans hmnemonic')
  obtain rfl := Instruction.mnemonic_injective hsame
  exact ⟨i, hi, hj⟩

/-! ## What a word does -/

/-- The machine with another word in progress, and with other random numbers to come. -/
def withWord (m : Machine) (word : Int) (random : RandomSource) : Machine :=
  { m with opcode := word, random := random }

theorem skipIf_withWord (m : Machine) (condition : Bool) :
    (m.withWord word random).skipIf condition = (m.skipIf condition).withWord word random := by
  cases condition <;> rfl

/-- A skip on a key looks at a register and the keys, and both are kept. -/
theorem skipOnKey_withWord (m : Machine) (x : Register) (wanted : Bool) :
    (m.withWord word random).skipOnKey x wanted =
      ⟨(m.skipOnKey x wanted).machine.withWord word random, (m.skipOnKey x wanted).fault⟩ := by
  have hheld : (m.withWord word random).keys.held? ((m.withWord word random).reg x) =
      m.keys.held? (m.reg x) := rfl
  simp only [skipOnKey, hheld]
  cases m.keys.held? (m.reg x) with
  | none => rfl
  | some held => exact congrArg finish (m.skipIf_withWord _)

/-- An instruction looks neither at its word nor at the source but for the next number, and
draws as many numbers in any case. -/
theorem exec_withWord (h : random.next = m.random.next) (i : Instruction) :
    (m.withWord word random).exec i =
      ⟨(m.exec i).machine.withWord word (random.after (numbersOf i)), (m.exec i).fault⟩ := by
  -- What an instruction asks of the memory, the stack or the keys has the same answer.
  cases i with
  | ret =>
    have hpop : (m.withWord word random).stack.pop = m.stack.pop := rfl
    simp only [exec, returnFromCall, hpop]
    cases m.stack.pop <;> rfl
  | call target =>
    have hpush : (m.withWord word random).stack.push (m.withWord word random).pc =
      m.stack.push m.pc := rfl
    simp only [exec, callTo, hpush]
    cases m.stack.push m.pc <;> rfl
  | skipEqByte | skipNeByte | skipEq | skipNe => exact congrArg finish (m.skipIf_withWord _)
  | skipHeld x => exact m.skipOnKey_withWord x true
  | skipNotHeld x => exact m.skipOnKey_withWord x false
  | random x byte =>
    have hnext : (m.withWord word random).random.next = m.random.next := h
    simp only [exec, randomInto, RandomSource.draw, hnext]
    rfl
  | draw x y height =>
    have hrows : drawRows ((m.withWord word random).setFlag 0).memory
        ((m.withWord word random).reg x).toNat ((m.withWord word random).reg y).toNat
        ((m.withWord word random).setFlag 0).i height.val
        ((m.withWord word random).setFlag 0).display =
      drawRows (m.setFlag 0).memory (m.reg x).toNat (m.reg y).toNat (m.setFlag 0).i height.val
        (m.setFlag 0).display := rfl
    simp only [exec, drawSprite, hrows]
    rcases drawRows (m.setFlag 0).memory (m.reg x).toNat (m.reg y).toNat (m.setFlag 0).i
      height.val (m.setFlag 0).display with ⟨d, hit, _ | fault⟩ <;> rfl
  | waitKey x =>
    have hkey : (m.withWord word random).keys.lowestHeld? = m.keys.lowestHeld? := rfl
    simp only [exec, waitForKey, hkey]
    cases m.keys.lowestHeld? <;> rfl
  | readDelay x =>
    have hdelay : (m.withWord word random).delay = m.delay := rfl
    simp only [exec, readDelayInto, putReg, hdelay]
    by_cases hbyte : 0 ≤ m.delay ∧ m.delay ≤ 0xFF
    · rw [if_pos hbyte, if_pos hbyte]
      rfl
    · rw [if_neg hbyte, if_neg hbyte]
      rfl
  | storeDecimal x =>
    have hwrite : (m.withWord word random).memory.writeEach (m.withWord word random).i
        (decimalDigits ((m.withWord word random).reg x)) =
      m.memory.writeEach m.i (decimalDigits (m.reg x)) := rfl
    simp only [exec, storeDecimalOf, hwrite]
    rcases m.memory.writeEach m.i (decimalDigits (m.reg x)) with ⟨memory, _ | fault⟩ <;> rfl
  | storeRegisters x =>
    have hwrite : (m.withWord word random).memory.writeBlock (m.withWord word random).i
        ((m.withWord word random).v.toArray.extract 0 (x.val + 1)) =
      m.memory.writeBlock m.i (m.v.toArray.extract 0 (x.val + 1)) := rfl
    simp only [exec, storeThrough, hwrite]
    cases m.memory.writeBlock m.i (m.v.toArray.extract 0 (x.val + 1)) <;> rfl
  | loadRegisters x =>
    have hread : (m.withWord word random).memory.readBlock (m.withWord word random).i
        (x.val + 1) = m.memory.readBlock m.i (x.val + 1) := rfl
    simp only [exec, loadThrough, hread]
    cases m.memory.readBlock m.i (x.val + 1) <;> rfl
  | _ => rfl

/-- A word that is an instruction is carried out without a look at the word itself. -/
theorem execute_withWord (h : random'.next = random.next) (hword : decode? word = some i)
    (hother : decode? other = some i) (m : Machine) :
    (m.withWord other random').execute =
      ⟨(m.withWord word random).execute.machine.withWord other (random'.after (numbersOf i)),
        (m.withWord word random).execute.fault⟩ := by
  have hword' : decode? (m.withWord word random).opcode = some i := hword
  have hother' : decode? (m.withWord other random').opcode = some i := hother
  simp only [execute, hword', hother']
  exact exec_withWord (m := m.withWord word random) h i

/-! ## All words -/

/-- A traced text says all that matters about a word. If a live trace shows the same text for
two words, then on every machine, and with any two sources that give the same number next,

* both are completed, or both are cut short by the same fault, and so with the same report;
* both draw equally many numbers;
* they leave the same machine, but for the word itself and for the source it was given. -/
theorem same_text_same_result (hword : ShownAs word text) (hother : ShownAs other text)
    (hnext : random.next = random'.next) (m : Machine) :
    let one := (m.withWord word random).execute
    let two := (m.withWord other random').execute
    one.fault = two.fault ∧
      ∃ n, one.machine.random = random.after n ∧
        two.machine = one.machine.withWord other (random'.after n) := by
  intro one two
  obtain ⟨i, hi, hj⟩ := hword.exists_instruction hother
  -- The first is compared with itself as well, which says how many numbers it draws.
  have hone : one = ⟨one.machine.withWord word (random.after (numbersOf i)), one.fault⟩ :=
    execute_withWord rfl hi hi m
  have htwo : two = ⟨one.machine.withWord other (random'.after (numbersOf i)), one.fault⟩ :=
    execute_withWord hnext.symm hi hj m
  refine ⟨?_, numbersOf i, ?_, ?_⟩
  · rw [htwo]
  · rw [hone]
    rfl
  · rw [htwo]

/-- Two words of a shift differ in the register that neither looks at. -/
theorem same_text_of_shifts :
    let one := (overwritten.withWord 0x8AB6 (.ofList [7])).execute
    let two := (overwritten.withWord 0x8AC6 (.ofList [7, 9])).execute
    ShownAs 0x8AB6 (Text.ofString "SHR Va") ∧ ShownAs 0x8AC6 (Text.ofString "SHR Va") ∧
      one.fault = two.fault ∧
      ∃ n, one.machine.random = (RandomSource.ofList [7]).after n ∧
        two.machine = one.machine.withWord 0x8AC6 ((RandomSource.ofList [7, 9]).after n) := by
  have hone : ShownAs 0x8AB6 (Text.ofString "SHR Va") :=
    shownAs_iff.mpr ⟨.shiftRight 0xA, by decide, by decide⟩
  have htwo : ShownAs 0x8AC6 (Text.ofString "SHR Va") :=
    shownAs_iff.mpr ⟨.shiftRight 0xA, by decide, by decide⟩
  exact ⟨hone, htwo, same_text_same_result hone htwo (by decide) overwritten⟩

end Chip8.Machine
