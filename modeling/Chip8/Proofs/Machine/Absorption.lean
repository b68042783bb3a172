import Chip8.Proofs.Machine.Faulting

/-!
# Chip8.Proofs.Machine.Absorption — a step that faults faults forever

A machine that has faulted never goes on: the next step faults as well, and so
does every step after it.

Most faults leave behind what caused them. The exception are the decimal digits,
which may be stored over the very word that stores them. But of the digits only
some have a place in memory, so the index stands near the end, and then

* the word is out of reach of the digits, and overreaches again; or
* its lower byte is the digit of the hundreds, and `FX00` to `FX02` are no
  instructions; or
* its two bytes are the hundreds and the tens, and `0000` to `0209` hold none of
  the two instructions of their family.
-/

namespace Chip8.Machine

open Instruction

variable {m : Machine} {i : Instruction}

/-! ## Digits over their own word -/

/-- The digits of a byte are small: hundreds up to two, and tens up to nine. -/
theorem decimalDigits_le (byte : UInt8) :
    (byte / 100).toNat ≤ 2 ∧ (byte / 10 % 10).toNat ≤ 9 := by
  have := byte.toNat_lt
  simp only [UInt8.toNat_div, UInt8.toNat_mod]
  show byte.toNat / 100 ≤ 2 ∧ byte.toNat / 10 % 10 ≤ 9
  omega

section

variable {x : Register} (hm : m.Bounded) (hpc : m.pc ≤ 0xFFE)
include hm hpc

/-- The word at the counter, after digits were stored beyond it. -/
theorem wordAt_storing_beyond (row : List UInt8) (h : m.pc + 1 < m.i) :
    { m with memory := m.memory.storing m.i row }.wordAt m.pc = m.wordAt m.pc := by
  obtain ⟨hhigh, hlow⟩ := holds_word hm hpc
  rw [wordAt, Memory.byteAt_storing row hhigh, Memory.byteAt_storing row hlow,
    if_neg (by omega), if_neg (by omega)]
  rfl

/-- The word at the counter, after a byte was stored over its lower half. -/
theorem wordAt_storing_low (byte : UInt8) (row : List UInt8) (h : m.i = m.pc + 1) :
    { m with memory := m.memory.storing m.i (byte :: row) }.wordAt m.pc =
      0x100 * ((m.memory.byteAt m.pc).toNat : Int) + byte.toNat := by
  obtain ⟨hhigh, hlow⟩ := holds_word hm hpc
  rw [wordAt, Memory.byteAt_storing _ hhigh, Memory.byteAt_storing _ hlow, if_neg (by omega),
    if_pos (by omega), h, Int.sub_self]
  rfl

/-- The word at the counter, after two bytes were stored over it. -/
theorem wordAt_storing_both (high low : UInt8) (row : List UInt8) (h : m.i = m.pc) :
    { m with memory := m.memory.storing m.i (high :: low :: row) }.wordAt m.pc =
      0x100 * (high.toNat : Int) + low.toNat := by
  obtain ⟨hhigh, hlow⟩ := holds_word hm hpc
  have hnext : m.pc + 1 - m.pc = 1 := by omega
  rw [wordAt, Memory.byteAt_storing _ hhigh, Memory.byteAt_storing _ hlow, if_pos (by omega),
    if_pos (by omega), h, Int.sub_self, hnext]
  rfl

/-- Digits that were cut short leave the word that stored them, or one that is no
instruction. -/
theorem wordAt_leftBy_storeDecimal (hi : (storeDecimal x).EncodedBy (m.wordAt m.pc))
    (hover : m.Overreaches (.storeDecimal x)) :
    (m.latched.leftBy (.storeDecimal x)).wordAt m.pc = m.wordAt m.pc ∨
      decode? ((m.latched.leftBy (.storeDecimal x)).wordAt m.pc) = none := by
  obtain ⟨hhundreds, htens⟩ := decimalDigits_le (m.reg x)
  have hend : 0xFFF < m.i + 2 := hover
  -- The first digit may lie beyond the word, on its lower byte, or on its higher one.
  rcases Int.lt_trichotomy (m.pc + 1) m.i with hbeyond | hlow | hwithin
  · -- The digits lie beyond the word.
    left
    exact wordAt_storing_beyond hm.latched hpc _ hbeyond
  · right
    have hword := wordAt_storing_low hm.latched hpc (m.reg x / 100)
      [m.reg x / 10 % 10, m.reg x % 10] hlow.symm
    -- The higher byte of the word is as it was and names the register.
    have hbyte : 0x100 * ((m.memory.byteAt m.pc).toNat : Int) + (m.reg x / 100).toNat =
        wordOfByte 0xF x (m.reg x / 100) := by
      have hencoded : m.wordAt m.pc = wordOfByte 0xF x 0x33 := hi
      have := (m.memory.byteAt (m.pc + 1)).toNat_lt
      have hlast : ((0x33 : UInt8).toNat : Int) = 0x33 := rfl
      unfold wordAt wordOfByte at hencoded
      unfold wordOfByte
      omega
    exact (congrArg decode? (hword.trans hbyte)).trans (decode?_of_family_F (by omega))
  · -- Before the word the digits would all have a place.
    right
    have hsame : m.i = m.pc := by omega
    have hword := wordAt_storing_both hm.latched hpc (m.reg x / 100) (m.reg x / 10 % 10)
      [m.reg x % 10] hsame
    -- A word that begins with a digit up to two and ends with one up to nine is no
    -- instruction.
    refine (congrArg decode? hword).trans (decode?_of_family_zero ?_ ?_ ?_ ?_) <;> omega

/-- The same of every instruction: all others leave memory alone. -/
theorem wordAt_leftBy (hi : i.EncodedBy (m.wordAt m.pc)) (hover : m.Overreaches i) :
    (m.latched.leftBy i).wordAt m.pc = m.wordAt m.pc ∨
      decode? ((m.latched.leftBy i).wordAt m.pc) = none := by
  cases i with
  | storeDecimal x => exact wordAt_leftBy_storeDecimal hm hpc hi hover
  | _ => exact .inl rfl

end

/-! ## The step after a fault -/

theorem overreaches_leftBy (h : m.Overreaches i) : (m.leftBy i).Overreaches i := by
  cases i <;> exact h

section

variable (hm : m.Bounded)
include hm

/-- What an instruction left is not enough for it to be completed the next time. -/
theorem fault_of_leftBy (hpc : m.pc ≤ 0xFFE) (hi : i.EncodedBy (m.wordAt m.pc))
    (h : m.Overreaches i) : (m.latched.leftBy i).step.fault ≠ none := by
  have hm' : (m.latched.leftBy i).Bounded := hm.latched.leftBy i
  have hpc' : (m.latched.leftBy i).pc = m.pc :=
    ((Unmoved.latched m).trans (Unmoved.leftBy m.latched i)).pc
  have hover : (m.latched.leftBy i).Overreaches i :=
    overreaches_leftBy (overreaches_latched.mpr h)
  -- The word is the same and faults again, or it is not even an instruction any more.
  rcases wordAt_leftBy hm hpc hi h with hsame | hnone
  · refine fault_of_overreaches hm' ?_ hover
    rw [hpc', hsame]
    exact hi
  · refine fault_of_unknown hm' ?_
    rw [hpc']
    exact hnone

/-- The step after one that faults faults too. -/
theorem Bounded.step_fault_again (h : m.step.fault ≠ none) :
    m.step.machine.step.fault ≠ none := by
  rcases m.turn_cases with hpc | ⟨hpc, hi⟩ | ⟨hpc, i, hi, hover⟩ | ⟨hpc, i, hi, hfits⟩
  · -- The counter has not moved, so it is still beyond memory.
    have hpc' : 0xFFE < m.step.machine.pc := (hm.step_unmoved h).pc ▸ hpc
    rw [step_of_beyond hm.step hpc']
    exact Option.some_ne_none _
  · -- The fetch changed no memory, so the same word comes round again.
    obtain ⟨h0, h1⟩ := m.wordAt_bounds m.pc
    rw [step_of_unknown hm hpc hi]
    exact fault_of_unknown hm.latched ((decode?_eq_none_iff h0 h1).mpr hi)
  · rw [step_of_overreaches hm hpc hi hover]
    exact fault_of_leftBy hm hpc hi hover
  · rw [step_of_fits hm hpc hi hfits] at h
    exact absurd rfl h

/-- Steps after one that faults move nothing and fault forever. -/
theorem Bounded.steps_fault_again (h : m.step.fault ≠ none) (n : Nat) :
    (m.performAll (List.replicate n .step)).step.fault ≠ none ∧
      m.Unmoved (m.performAll (List.replicate n .step)) := by
  -- By induction on the number of steps, each of which starts from a fault again.
  induction n generalizing m with
  | zero => exact ⟨h, Unmoved.refl m⟩
  | succ n ih =>
    obtain ⟨hfault, hunmoved⟩ := ih hm.step (hm.step_fault_again h)
    exact ⟨hfault, (hm.step_unmoved h).trans hunmoved⟩

end

/-- A machine that has faulted faults forever, and nothing moves: however often it
is stepped, the next step faults again, and the counter, the index, both timers,
the open calls, the keys and the count of beeps are those before the first fault. -/
theorem faulting_absorbs (h : m.Reachable) (hfault : m.step.fault ≠ none) (n : Nat) :
    (m.performAll (List.replicate n .step)).step.fault ≠ none ∧
      m.Unmoved (m.performAll (List.replicate n .step)) :=
  h.bounded.steps_fault_again hfault n

/-- The program that overwrites its last word faults forever, at the same place. -/
theorem overwritten_faults_forever :
    let later := overwritten.performAll (List.replicate 3 .step)
    later.step.fault ≠ none ∧ later.pc = 0xFFE := by
  obtain ⟨hfault, hunmoved⟩ := faulting_absorbs reachable_overwritten overwritten_faults 3
  exact ⟨hfault, hunmoved.pc.trans overwritten_spec.1⟩

end Chip8.Machine
