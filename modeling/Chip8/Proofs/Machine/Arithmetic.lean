import Chip8.Proofs.Machine.Effect

/-!
# Chip8.Proofs.Machine.Arithmetic — sums, differences and shifts

The words `8XY4` to `8XY7` and `8XYE` set the flag and then `VX`. Each of `X` and `Y` may
name the flag itself, and then the result is made of the new flag:

* `flagFirst_apart`, `flagFirst_intoFlag`, `flagFirst_fromFlag` and `flagFirst_alone` —
  what comes of setting the flag first, by which operands are the flag.
* `Machine.Apart`, `Machine.IntoFlag`, `Machine.FromFlag`, `Machine.FlagAlone` and
  `Machine.Shifted` — the same as laws of whole numbers, word by word.

`arithmetic_of_every_aliasing` says that these laws hold of every machine whatever its
registers hold, and that the words change no other register.
-/

namespace Chip8.Machine

open Instruction

variable {m : Machine} {x y r : Register} {last : Nat}

/-! ## Setting the flag first -/

section FlagFirst

variable (m) (flag : UInt8) (f : UInt8 → UInt8 → UInt8)

/-- Setting the flag and then a register leaves all other registers alone. -/
theorem flagFirst_other (hx : r ≠ x) (hflag : r ≠ flagRegister) :
    m.flagFirst flag x y f r = m.reg r := by
  simp only [flagFirst, regWith, if_neg hx, if_neg hflag]

/-- The flag is left in its register, unless the result goes there. -/
theorem flagFirst_flag (hx : x ≠ flagRegister) : m.flagFirst flag x y f flagRegister = flag := by
  simp only [flagFirst, regWith, if_neg hx.symm, if_true]

/-- Operands that are not the flag are read as they were. -/
theorem flagFirst_apart (hx : x ≠ flagRegister) (hy : y ≠ flagRegister) :
    m.flagFirst flag x y f x = f (m.reg x) (m.reg y) := by
  simp only [flagFirst, regWith, if_neg hx, if_neg hy, if_true]

/-- A result that goes into the flag is made from the new flag. -/
theorem flagFirst_intoFlag (hy : y ≠ flagRegister) :
    m.flagFirst flag flagRegister y f flagRegister = f flag (m.reg y) := by
  simp only [flagFirst, regWith, if_neg hy, if_true]

/-- A second operand that is the flag is the new one. -/
theorem flagFirst_fromFlag (hx : x ≠ flagRegister) :
    m.flagFirst flag x flagRegister f x = f (m.reg x) flag := by
  simp only [flagFirst, regWith, if_neg hx, if_true]

/-- If both operands are the flag, both of them are the new one. -/
theorem flagFirst_alone :
    m.flagFirst flag flagRegister flagRegister f flagRegister = f flag flag := by
  simp only [flagFirst, regWith, if_true]

end FlagFirst

/-! ## Bytes as whole numbers -/

theorem toNat_flagOf (condition : Prop) [Decidable condition] :
    ((flagOf condition).toNat : Int) = if condition then 1 else 0 := by
  unfold flagOf
  split <;> rfl

/-- A sum of bytes is cut to a byte. -/
theorem toNat_sum (a b : UInt8) : ((a + b).toNat : Int) = (a.toNat + b.toNat) % 256 := by
  rw [UInt8.toNat_add]
  omega

/-- A difference of bytes is cut to a byte. -/
theorem toNat_difference (a b : UInt8) :
    ((a - b).toNat : Int) = ((a.toNat : Int) - b.toNat) % 256 := by
  have hb := b.toNat_lt
  rw [UInt8.toNat_sub]
  omega

theorem toNat_lowBit (a : UInt8) : (a &&& 1).toNat = a.toNat % 2 := by
  rw [UInt8.toNat_and]
  exact Nat.and_one_is_mod a.toNat

/-- The highest bit counts 128. -/
theorem toNat_highBit (a : UInt8) : (a &&& 0x80).toNat = a.toNat / 128 * 128 := by
  -- There are few bytes, and no lemma tells this bit from the remainder below it.
  have hbytes : ∀ n < 256, n &&& 0x80 = n / 128 * 128 := by decide +kernel
  rw [UInt8.toNat_and]
  exact hbytes a.toNat a.toNat_lt

theorem toNat_half (a : UInt8) : (a >>> 1).toNat = a.toNat / 2 := by
  rw [UInt8.toNat_shiftRight]
  exact Nat.shiftRight_eq_div_pow a.toNat 1

/-- To shift a byte to the left is to double it, and to cut it to a byte. -/
theorem toNat_double (a : UInt8) : (a <<< 1).toNat = 2 * a.toNat % 256 := by
  rw [UInt8.toNat_shiftLeft]
  show a.toNat <<< 1 % 256 = _
  rw [Nat.shiftLeft_eq]
  omega

/-! ## Carrying out a word -/

/-- Carries out the word `8XYN`. -/
def calculate (m : Machine) (x y : Register) (last : Nat) : Progress :=
  { m with opcode := wordOfDigits 0x8 x y last }.execute

/-- A word that encodes an instruction is carried out as this instruction. -/
theorem calculate_eq {i : Instruction} (hi : i.EncodedBy (wordOfDigits 0x8 x y last))
    (m : Machine) :
    m.calculate x y last = { m with opcode := wordOfDigits 0x8 x y last }.exec i := by
  have hdecode := decode?_of_encodedBy hi
  simp only [calculate, execute, hdecode]

section Words

variable (m) (x y r)

/-- What the word `8XY4` leaves in the registers. -/
theorem reg_calculate_add : (m.calculate x y 0x4).machine.reg r =
    m.flagFirst (flagOf (0xFF < (m.reg x).toNat + (m.reg y).toNat)) x y (fun a b => a + b) r := by
  have hi : (add x y).EncodedBy (wordOfDigits 0x8 x y 0x4) := rfl
  rw [calculate_eq hi]
  exact reg_exec_add _ x y r

/-- What the word `8XY5` leaves in the registers. -/
theorem reg_calculate_sub : (m.calculate x y 0x5).machine.reg r =
    m.flagFirst (flagOf (m.reg y < m.reg x)) x y (fun a b => a - b) r := by
  have hi : (sub x y).EncodedBy (wordOfDigits 0x8 x y 0x5) := rfl
  rw [calculate_eq hi]
  exact reg_exec_sub _ x y r

/-- What the word `8XY7` leaves in the registers. -/
theorem reg_calculate_subFrom : (m.calculate x y 0x7).machine.reg r =
    m.flagFirst (flagOf (m.reg y < m.reg x)) x y (fun a b => b - a) r := by
  have hi : (subFrom x y).EncodedBy (wordOfDigits 0x8 x y 0x7) := rfl
  rw [calculate_eq hi]
  exact reg_exec_subFrom _ x y r

/-- What the word `8XY6` leaves in the registers. -/
theorem reg_calculate_shiftRight : (m.calculate x y 0x6).machine.reg r =
    m.flagFirst (m.reg x &&& 1) x x (fun a _ => a >>> 1) r := by
  have hi : (shiftRight x).EncodedBy (wordOfDigits 0x8 x y 0x6) := ⟨y, rfl⟩
  rw [calculate_eq hi]
  exact reg_change _ _ x _ r

/-- What the word `8XYE` leaves in the registers. -/
theorem reg_calculate_shiftLeft : (m.calculate x y 0xE).machine.reg r =
    m.flagFirst (m.reg x &&& 0x80) x x (fun a _ => a <<< 1) r := by
  have hi : (shiftLeft x).EncodedBy (wordOfDigits 0x8 x y 0xE) := ⟨y, rfl⟩
  rw [calculate_eq hi]
  exact reg_change _ _ x _ r

end Words

/-- The last digits of the words that set the flag and then `VX`. -/
def Calculates (last : Nat) : Prop :=
  last = 0x4 ∨ last = 0x5 ∨ last = 0x6 ∨ last = 0x7 ∨ last = 0xE

/-- Such a word asks for an instruction that is always completed and follows the table of
registers, in which it changes `VX` and the flag only. -/
theorem Calculates.exists_instruction (h : Calculates last) (x y : Register) :
    ∃ i : Instruction, i.EncodedBy (wordOfDigits 0x8 x y last) ∧ ∀ m : Machine,
      (m.exec i).fault = none ∧ (∀ r, (m.exec i).machine.reg r = m.registerAfter i r) ∧
        ∀ r, r ≠ x → r ≠ flagRegister → m.registerAfter i r = m.reg r := by
  -- In the same order as the last digits, each with the instruction of its word.
  rcases h with rfl | rfl | rfl | rfl | rfl
  · refine ⟨add x y, rfl, fun m => ⟨rfl, m.reg_exec_add x y, ?_⟩⟩
    intro r hx hflag
    simp only [registerAfter, flagFirst_other _ _ _ hx hflag]
  · refine ⟨sub x y, rfl, fun m => ⟨rfl, m.reg_exec_sub x y, ?_⟩⟩
    intro r hx hflag
    simp only [registerAfter, flagFirst_other _ _ _ hx hflag]
  · refine ⟨shiftRight x, ⟨y, rfl⟩, fun m => ⟨rfl, m.reg_change _ x _, ?_⟩⟩
    intro r hx hflag
    simp only [registerAfter, flagFirst_other _ _ _ hx hflag]
  · refine ⟨subFrom x y, rfl, fun m => ⟨rfl, m.reg_exec_subFrom x y, ?_⟩⟩
    intro r hx hflag
    simp only [registerAfter, flagFirst_other _ _ _ hx hflag]
  · refine ⟨shiftLeft x, ⟨y, rfl⟩, fun m => ⟨rfl, m.reg_change _ x _, ?_⟩⟩
    intro r hx hflag
    simp only [registerAfter, flagFirst_other _ _ _ hx hflag]

theorem tick_reg (m : Machine) (r : Register) : m.tick.reg r = m.reg r := by
  unfold tick tickDelay tickSound
  split <;> split <;> rfl

/-- A step that completes the instruction it has fetched counts the timers down after it. -/
theorem step_of_exec {word : Int} {i : Instruction} (hfetch : m.fetch = .ok word)
    (hi : i.EncodedBy word)
    (hdone : ({ m with opcodeAt := m.pc, opcode := word }.exec i).fault = none) :
    m.step = ({ m with opcodeAt := m.pc, opcode := word }.exec i).machine.tick.finish := by
  have hlatch : m.latch = { m with opcodeAt := m.pc, opcode := word }.finish := by
    have hsame : { m with opcodeAt := m.pc }.fetch = m.fetch := rfl
    simp only [latch, hsame, hfetch]
  have hexecute : { m with opcodeAt := m.pc, opcode := word }.execute =
      ({ m with opcodeAt := m.pc, opcode := word }.exec i).machine.finish := by
    -- The word that was fetched is the one that is carried out, and it is not a fault.
    rw [finish, ← hdone]
    simp only [execute, decode?_of_encodedBy hi]
  rw [finish] at hlatch hexecute
  simp only [step, hlatch, hexecute]

/-- A word that calculates is completed and leaves the other registers alone, and a step
that fetches it leaves the same registers. -/
theorem Calculates.calculate (h : Calculates last) (m : Machine) (x y : Register) :
    (m.calculate x y last).fault = none ∧
      (∀ r, r ≠ x → r ≠ flagRegister → (m.calculate x y last).machine.reg r = m.reg r) ∧
      (m.fetch = .ok (wordOfDigits 0x8 x y last) → m.step.fault = none ∧
        ∀ r, m.step.machine.reg r = (m.calculate x y last).machine.reg r) := by
  obtain ⟨i, hi, hexec⟩ := h.exists_instruction x y
  obtain ⟨hfault, hregisters, hothers⟩ := hexec { m with opcode := wordOfDigits 0x8 x y last }
  rw [calculate_eq hi]
  refine ⟨hfault, ?_, ?_⟩
  · intro r hx hflag
    rw [hregisters]
    exact hothers r hx hflag
  · intro hfetch
    -- The step notes the address of the word as well, which no register depends on.
    obtain ⟨hdone, hstepped, -⟩ :=
      hexec { m with opcodeAt := m.pc, opcode := wordOfDigits 0x8 x y last }
    rw [step_of_exec hfetch hi hdone]
    refine ⟨rfl, ?_⟩
    intro r
    show Machine.reg (tick _) r = _
    rw [tick_reg, hstepped, hregisters]
    cases i <;> rfl

/-! ## The laws -/

/-- What a register holds, as a whole number. -/
def number (m : Machine) (r : Register) : Int := (m.reg r).toNat

/-- What the word `8XYN` leaves in a register, as a whole number. -/
def leaves (m : Machine) (x y : Register) (last : Nat) (r : Register) : Int :=
  (m.calculate x y last).machine.number r

/-- One if the sum of two registers is no byte, else zero. -/
def carry (m : Machine) (x y : Register) : Int :=
  if 0xFF < m.number x + m.number y then 1 else 0

/-- One if the first of two registers holds the larger number, else zero. Equal numbers
count as a borrow. -/
def noBorrow (m : Machine) (x y : Register) : Int :=
  if m.number y < m.number x then 1 else 0

/-- The laws for operands that are not the flag. -/
structure Apart (m : Machine) (x y : Register) : Prop where
  add : 256 * m.leaves x y 0x4 flagRegister + m.leaves x y 0x4 x = m.number x + m.number y
  addFlag : m.leaves x y 0x4 flagRegister = 0 ∨ m.leaves x y 0x4 flagRegister = 1
  sub : m.leaves x y 0x5 x = (m.number x - m.number y) % 256
  subFlag : m.leaves x y 0x5 flagRegister = m.noBorrow x y
  subFrom : m.leaves x y 0x7 x =
    m.number y - m.number x + 256 * m.leaves x y 0x7 flagRegister
  subFromFlag : m.leaves x y 0x7 flagRegister = m.noBorrow x y

/-- The laws where the result goes into the flag: the new flag stands in for `VX`. -/
structure IntoFlag (m : Machine) (y : Register) : Prop where
  add : m.leaves flagRegister y 0x4 flagRegister =
    (m.carry flagRegister y + m.number y) % 256
  sub : m.leaves flagRegister y 0x5 flagRegister =
    (m.noBorrow flagRegister y - m.number y) % 256
  subFrom : m.leaves flagRegister y 0x7 flagRegister =
    (m.number y - m.noBorrow flagRegister y) % 256

/-- The laws where the second operand is the flag: the new flag stands in for `VY`. -/
structure FromFlag (m : Machine) (x : Register) : Prop where
  add : m.leaves x flagRegister 0x4 x = (m.number x + m.carry x flagRegister) % 256
  addFlag : m.leaves x flagRegister 0x4 flagRegister = m.carry x flagRegister
  sub : m.leaves x flagRegister 0x5 x = (m.number x - m.noBorrow x flagRegister) % 256
  subFlag : m.leaves x flagRegister 0x5 flagRegister = m.noBorrow x flagRegister
  subFrom : m.leaves x flagRegister 0x7 x = (m.noBorrow x flagRegister - m.number x) % 256
  subFromFlag : m.leaves x flagRegister 0x7 flagRegister = m.noBorrow x flagRegister

/-- The laws where the flag is the only operand. -/
structure FlagAlone (m : Machine) : Prop where
  add : m.leaves flagRegister flagRegister 0x4 flagRegister =
    if 127 < m.number flagRegister then 2 else 0
  sub : m.leaves flagRegister flagRegister 0x5 flagRegister = 0
  subFrom : m.leaves flagRegister flagRegister 0x7 flagRegister = 0

/-- The laws of both shifts, whatever `Y` is. The bit that is shifted out goes into the flag
as it stands, and is lost if the flag is shifted. -/
structure Shifted (m : Machine) (x y : Register) : Prop where
  right : x ≠ flagRegister →
    2 * m.leaves x y 0x6 x + m.leaves x y 0x6 flagRegister = m.number x
  rightFlag : x ≠ flagRegister →
    m.leaves x y 0x6 flagRegister = 0 ∨ m.leaves x y 0x6 flagRegister = 1
  left : x ≠ flagRegister →
    2 * m.number x = m.leaves x y 0xE x + 2 * m.leaves x y 0xE flagRegister
  leftFlag : x ≠ flagRegister →
    m.leaves x y 0xE flagRegister = 0 ∨ m.leaves x y 0xE flagRegister = 0x80
  rightAlone : x = flagRegister → m.leaves x y 0x6 flagRegister = 0
  leftAlone : x = flagRegister → m.leaves x y 0xE flagRegister = 0

theorem number_bounds (m : Machine) (r : Register) : 0 ≤ m.number r ∧ m.number r < 256 := by
  have hlt := (m.reg r).toNat_lt
  unfold number
  omega

/-- A carry is one or none. -/
theorem carry_cases (m : Machine) (x y : Register) : m.carry x y = 0 ∨ m.carry x y = 1 := by
  unfold carry
  split
  · exact .inr rfl
  · exact .inl rfl

theorem noBorrow_self (m : Machine) (x : Register) : m.noBorrow x x = 0 :=
  if_neg (Int.lt_irrefl _)

/-! ### What the words leave, as whole numbers -/

section Leaves

variable (m) (x y)

/-- The carry in the flag is the carry of the numbers. -/
theorem toNat_carry :
    ((flagOf (0xFF < (m.reg x).toNat + (m.reg y).toNat)).toNat : Int) = m.carry x y := by
  have hiff : 0xFF < (m.reg x).toNat + (m.reg y).toNat ↔ 0xFF < m.number x + m.number y := by
    unfold number
    omega
  rw [toNat_flagOf, carry]
  simp only [hiff]

/-- The borrow in the flag is the borrow of the numbers. -/
theorem toNat_noBorrow : ((flagOf (m.reg y < m.reg x)).toNat : Int) = m.noBorrow x y := by
  have hiff : m.reg y < m.reg x ↔ m.number y < m.number x := by
    rw [UInt8.lt_iff_toNat_lt]
    unfold number
    omega
  rw [toNat_flagOf, noBorrow]
  simp only [hiff]

/-- The flag of a sum is the carry. -/
theorem leaves_add_flag (hx : x ≠ flagRegister) :
    m.leaves x y 0x4 flagRegister = m.carry x y := by
  rw [leaves, number, reg_calculate_add, flagFirst_flag _ _ _ hx, toNat_carry]

/-- The flag of a difference says that nothing was borrowed. -/
theorem leaves_sub_flag (hx : x ≠ flagRegister) :
    m.leaves x y 0x5 flagRegister = m.noBorrow x y := by
  rw [leaves, number, reg_calculate_sub, flagFirst_flag _ _ _ hx, toNat_noBorrow]

/-- The flag of the other difference says the same. -/
theorem leaves_subFrom_flag (hx : x ≠ flagRegister) :
    m.leaves x y 0x7 flagRegister = m.noBorrow x y := by
  rw [leaves, number, reg_calculate_subFrom, flagFirst_flag _ _ _ hx, toNat_noBorrow]

/-- The laws hold for operands that are not the flag. -/
theorem apart (hx : x ≠ flagRegister) (hy : y ≠ flagRegister) : m.Apart x y := by
  have hfirst := m.number_bounds x
  have hsecond := m.number_bounds y
  constructor
  case add =>
    rw [leaves_add_flag m x y hx, leaves, number, reg_calculate_add,
      flagFirst_apart _ _ _ hx hy, toNat_sum]
    -- The carry makes up for what is cut off the sum.
    show 256 * m.carry x y + (m.number x + m.number y) % 256 = _
    unfold carry
    split <;> omega
  case addFlag =>
    rw [leaves_add_flag m x y hx]
    exact m.carry_cases x y
  case sub =>
    rw [leaves, number, reg_calculate_sub, flagFirst_apart _ _ _ hx hy, toNat_difference]
    rfl
  case subFlag => exact leaves_sub_flag m x y hx
  case subFrom =>
    rw [leaves_subFrom_flag m x y hx, leaves, number, reg_calculate_subFrom,
      flagFirst_apart _ _ _ hx hy, toNat_difference]
    -- A borrow makes up for what is missing to the difference.
    show (m.number y - m.number x) % 256 = m.number y - m.number x + 256 * m.noBorrow x y
    unfold noBorrow
    split <;> omega
  case subFromFlag => exact leaves_subFrom_flag m x y hx

/-- The laws hold where the result goes into the flag. -/
theorem intoFlag (hy : y ≠ flagRegister) : m.IntoFlag y := by
  constructor
  case add =>
    rw [leaves, number, reg_calculate_add, flagFirst_intoFlag _ _ _ hy, toNat_sum, toNat_carry]
    rfl
  case sub =>
    rw [leaves, number, reg_calculate_sub, flagFirst_intoFlag _ _ _ hy, toNat_difference,
      toNat_noBorrow]
    rfl
  case subFrom =>
    rw [leaves, number, reg_calculate_subFrom, flagFirst_intoFlag _ _ _ hy, toNat_difference,
      toNat_noBorrow]
    rfl

/-- The laws hold where the second operand is the flag. -/
theorem fromFlag (hx : x ≠ flagRegister) : m.FromFlag x := by
  constructor
  case add =>
    rw [leaves, number, reg_calculate_add, flagFirst_fromFlag _ _ _ hx, toNat_sum, toNat_carry]
    rfl
  case addFlag => exact leaves_add_flag m x _ hx
  case sub =>
    rw [leaves, number, reg_calculate_sub, flagFirst_fromFlag _ _ _ hx, toNat_difference,
      toNat_noBorrow]
    rfl
  case subFlag => exact leaves_sub_flag m x _ hx
  case subFrom =>
    rw [leaves, number, reg_calculate_subFrom, flagFirst_fromFlag _ _ _ hx, toNat_difference,
      toNat_noBorrow]
    rfl
  case subFromFlag => exact leaves_subFrom_flag m x _ hx

/-- The laws hold where the flag is the only operand. -/
theorem flagAlone : m.FlagAlone := by
  constructor
  case add =>
    rw [leaves, number, reg_calculate_add, flagFirst_alone, toNat_sum, toNat_carry]
    -- The sum of the flag with itself is no byte from 128 on.
    unfold carry
    split <;> split <;> omega
  -- The flag is taken from itself, whatever it has become.
  case sub =>
    rw [leaves, number, reg_calculate_sub, flagFirst_alone, toNat_difference, toNat_noBorrow,
      noBorrow_self]
    rfl
  case subFrom =>
    rw [leaves, number, reg_calculate_subFrom, flagFirst_alone, toNat_difference,
      toNat_noBorrow, noBorrow_self]
    rfl

/-- The flag of a shift to the right is the bit that was lowest. -/
theorem leaves_shiftRight_flag (hx : x ≠ flagRegister) :
    m.leaves x y 0x6 flagRegister = m.number x % 2 := by
  rw [leaves, number, reg_calculate_shiftRight, flagFirst_flag _ _ _ hx, toNat_lowBit]
  rfl

/-- The flag of a shift to the left is the bit that was highest, in its place. -/
theorem leaves_shiftLeft_flag (hx : x ≠ flagRegister) :
    m.leaves x y 0xE flagRegister = m.number x / 128 * 128 := by
  rw [leaves, number, reg_calculate_shiftLeft, flagFirst_flag _ _ _ hx, toNat_highBit]
  rfl

/-- The laws hold for both shifts. -/
theorem shifted : m.Shifted x y := by
  have hbounds := m.number_bounds x
  constructor
  -- A number is twice its half and the bit that is left over.
  case right =>
    intro hx
    rw [leaves_shiftRight_flag m x y hx, leaves, number, reg_calculate_shiftRight,
      flagFirst_apart _ _ _ hx hx, toNat_half]
    show 2 * (m.number x / 2) + m.number x % 2 = m.number x
    omega
  case rightFlag =>
    intro hx
    rw [leaves_shiftRight_flag m x y hx]
    omega
  case left =>
    intro hx
    have hdouble : m.leaves x y 0xE x = 2 * m.number x % 256 := by
      rw [leaves, number, reg_calculate_shiftLeft, flagFirst_apart _ _ _ hx hx, toNat_double]
      rfl
    rw [leaves_shiftLeft_flag m x y hx, hdouble]
    omega
  case leftFlag =>
    intro hx
    rw [leaves_shiftLeft_flag m x y hx]
    omega
  -- The flag was set to a single bit first, and that is shifted out.
  case rightAlone =>
    rintro rfl
    rw [leaves, number, reg_calculate_shiftRight, flagFirst_alone, toNat_half, toNat_lowBit]
    omega
  case leftAlone =>
    rintro rfl
    rw [leaves, number, reg_calculate_shiftLeft, flagFirst_alone, toNat_double, toNat_highBit]
    omega

end Leaves

/-! ## All machines -/

/-- Sums, differences and shifts of any registers of any machine follow the laws, by which
of their operands are the flag. The five words are always completed, change no register
but `VX` and the flag, and do the same when a step fetches them. -/
theorem arithmetic_of_every_aliasing (m : Machine) (x y : Register) :
    (x ≠ flagRegister → y ≠ flagRegister → m.Apart x y) ∧
      (x = flagRegister → y ≠ flagRegister → m.IntoFlag y) ∧
      (x ≠ flagRegister → y = flagRegister → m.FromFlag x) ∧
      (x = flagRegister → y = flagRegister → m.FlagAlone) ∧
      m.Shifted x y ∧
      ∀ last, Calculates last →
        (m.calculate x y last).fault = none ∧
          (∀ r, r ≠ x → r ≠ flagRegister → (m.calculate x y last).machine.reg r = m.reg r) ∧
          (m.fetch = .ok (wordOfDigits 0x8 x y last) → m.step.fault = none ∧
            ∀ r, m.step.machine.reg r = (m.calculate x y last).machine.reg r) := by
  refine ⟨m.apart x y, ?_, ?_, ?_, m.shifted x y, ?_⟩
  · intro _ hy
    exact m.intoFlag y hy
  · intro hx _
    exact m.fromFlag x hx
  · intro _ _
    exact m.flagAlone
  · intro last hlast
    exact hlast.calculate m x y

end Chip8.Machine
