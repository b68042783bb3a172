import Chip8.Instruction

/-!
# Chip8.Proofs.Instruction.Encoding — which words ask for which instruction

`Instruction.EncodedBy` is the table of the instructions: for each the words that
ask for it, put together from a family and operands. Three layouts are enough:

* `wordOfAddress` — a family and an address, `FNNN`.
* `wordOfByte` — a family, a register and a byte, `FXNN`.
* `wordOfDigits` — a family and three digits, `FXYN`.

`decode?_eq_some_iff` says that decoding follows the table both ways. Words that
the table does not list are no instructions, and no word asks for two.
-/

namespace Chip8.Instruction

variable {word : Int}

/-! ## Layouts -/

/-- The word `FNNN`. -/
def wordOfAddress (family : Nat) (target : Fin 4096) : Int := 0x1000 * family + target.val

/-- The word `FXNN`. -/
def wordOfByte (family : Nat) (x : Register) (byte : UInt8) : Int :=
  0x1000 * family + 0x100 * x.val + byte.toNat

/-- The word `FXYN`. -/
def wordOfDigits (family : Nat) (x y : Register) (last : Nat) : Int :=
  0x1000 * family + 0x100 * x.val + 0x10 * y.val + last

/-- The digit of a weight is what division and remainder leave of the word. -/
theorem digitAt_val (word weight : Int) :
    ((digitAt word weight).val : Int) = word / weight % 16 := by
  simp only [digitAt, Fin.val_ofNat]
  omega

theorem fieldByte_toNat (word : Int) : ((fieldByte word).toNat : Int) = word % 0x100 := by
  simp only [fieldByte, UInt8.toNat_ofNat']
  omega

theorem fieldAddress_val (word : Int) : ((fieldAddress word).val : Int) = word % 0x1000 := by
  simp only [fieldAddress, Fin.val_ofNat]
  omega

/-- A digit is found by its weight. -/
theorem digitAt_eq {weight : Int} {digit : Nat} (h : word / weight % 16 = digit) :
    (digitAt word weight).val = digit := by
  have := digitAt_val word weight
  omega

section

variable {family last : Nat} (hfamily : family < 16) (hlast : last < 16)

include hfamily in
/-- The family of a word is found in its layout with an address. -/
theorem digitAt_wordOfAddress (target : Fin 4096) :
    (digitAt (wordOfAddress family target) 0x1000).val = family := by
  apply digitAt_eq
  unfold wordOfAddress
  omega

/-- The address of a word is found in its layout. -/
theorem fieldAddress_wordOfAddress (family : Nat) (target : Fin 4096) :
    fieldAddress (wordOfAddress family target) = target := by
  apply Fin.ext
  have := fieldAddress_val (wordOfAddress family target)
  unfold wordOfAddress at *
  omega

-- The fields of a layout do not overlap, so each is read off the sum by division.
include hfamily in
/-- The family of a word is found in its layout with a byte. -/
theorem digitAt_wordOfByte (x : Register) (byte : UInt8) :
    (digitAt (wordOfByte family x byte) 0x1000).val = family := by
  apply digitAt_eq
  have := byte.toNat_lt
  unfold wordOfByte
  omega

theorem fieldX_wordOfByte (family : Nat) (x : Register) (byte : UInt8) :
    fieldX (wordOfByte family x byte) = x := by
  apply Fin.ext
  apply digitAt_eq
  have := byte.toNat_lt
  unfold wordOfByte
  omega

theorem fieldByte_wordOfByte (family : Nat) (x : Register) (byte : UInt8) :
    fieldByte (wordOfByte family x byte) = byte := by
  apply UInt8.toNat_inj.mp
  have := byte.toNat_lt
  have := fieldByte_toNat (wordOfByte family x byte)
  unfold wordOfByte at *
  omega

include hfamily hlast in
/-- The family of a word is found in its layout with digits. -/
theorem digitAt_wordOfDigits (x y : Register) :
    (digitAt (wordOfDigits family x y last) 0x1000).val = family := by
  apply digitAt_eq
  unfold wordOfDigits
  omega

include hlast in
theorem fieldX_wordOfDigits (x y : Register) : fieldX (wordOfDigits family x y last) = x := by
  apply Fin.ext
  apply digitAt_eq
  unfold wordOfDigits
  omega

include hlast in
theorem fieldY_wordOfDigits (x y : Register) : fieldY (wordOfDigits family x y last) = y := by
  apply Fin.ext
  apply digitAt_eq
  unfold wordOfDigits
  omega

include hlast in
theorem fieldNibble_wordOfDigits (x y : Register) :
    (fieldNibble (wordOfDigits family x y last)).val = last := by
  apply digitAt_eq
  unfold wordOfDigits
  omega

end

/-! ## The table -/

/-- The words that ask for an instruction. -/
def EncodedBy (word : Int) : Instruction → Prop
  | clear => word = 0x00E0
  | ret => word = 0x00EE
  | jump target => word = wordOfAddress 0x1 target
  | call target => word = wordOfAddress 0x2 target
  | skipEqByte x byte => word = wordOfByte 0x3 x byte
  | skipNeByte x byte => word = wordOfByte 0x4 x byte
  | skipEq x y => ∃ last < 16, word = wordOfDigits 0x5 x y last
  | loadByte x byte => word = wordOfByte 0x6 x byte
  | addByte x byte => word = wordOfByte 0x7 x byte
  | load x y => word = wordOfDigits 0x8 x y 0x0
  | or x y => word = wordOfDigits 0x8 x y 0x1
  | and x y => word = wordOfDigits 0x8 x y 0x2
  | xor x y => word = wordOfDigits 0x8 x y 0x3
  | add x y => word = wordOfDigits 0x8 x y 0x4
  | sub x y => word = wordOfDigits 0x8 x y 0x5
  | shiftRight x => ∃ y, word = wordOfDigits 0x8 x y 0x6
  | subFrom x y => word = wordOfDigits 0x8 x y 0x7
  | shiftLeft x => ∃ y, word = wordOfDigits 0x8 x y 0xE
  | skipNe x y => ∃ last < 16, word = wordOfDigits 0x9 x y last
  | loadIndex target => word = wordOfAddress 0xA target
  | jumpFrom target => word = wordOfAddress 0xB target
  | random x byte => word = wordOfByte 0xC x byte
  | draw x y height => word = wordOfDigits 0xD x y height.val
  | skipHeld x => word = wordOfByte 0xE x 0x9E
  | skipNotHeld x => word = wordOfByte 0xE x 0xA1
  | readDelay x => word = wordOfByte 0xF x 0x07
  | waitKey x => word = wordOfByte 0xF x 0x0A
  | setDelay x => word = wordOfByte 0xF x 0x15
  | setSound x => word = wordOfByte 0xF x 0x18
  | addIndex x => word = wordOfByte 0xF x 0x1E
  | loadGlyph x => word = wordOfByte 0xF x 0x29
  | storeDecimal x => word = wordOfByte 0xF x 0x33
  | storeRegisters x => word = wordOfByte 0xF x 0x55
  | loadRegisters x => word = wordOfByte 0xF x 0x65

/-- A word of the table asks for its instruction. -/
theorem decode?_of_encodedBy {i : Instruction} (h : i.EncodedBy word) :
    decode? word = some i := by
  -- Each layout has its own lemmas about the fields. The family, and for some the last digits,
  -- choose the row.
  cases i with
  | clear | ret =>
    rw [h]
    decide
  | jump | call | loadIndex | jumpFrom =>
    rw [h]
    simp (disch := decide) only [decode?, digitAt_wordOfAddress, fieldAddress_wordOfAddress]
  -- The last digit of these two may be any, and decoding does not look at it.
  | skipEq | skipNe =>
    obtain ⟨last, hlast, h⟩ := h
    rw [h]
    simp (disch := first | decide | exact hlast) only [decode?, digitAt_wordOfDigits,
      fieldX_wordOfDigits, fieldY_wordOfDigits]
  -- The second register is not looked at.
  | shiftRight | shiftLeft =>
    obtain ⟨_, h⟩ := h
    rw [h]
    simp (disch := decide) only [decode?, digitAt_wordOfDigits, fieldX_wordOfDigits,
      fieldNibble_wordOfDigits, arithmetic?]
  | load | or | and | xor | add | sub | subFrom =>
    rw [h]
    simp (disch := decide) only [decode?, digitAt_wordOfDigits, fieldX_wordOfDigits,
      fieldY_wordOfDigits, fieldNibble_wordOfDigits, arithmetic?]
  | draw x y height =>
    have hheight : fieldNibble (wordOfDigits 0xD x y height.val) = height :=
      Fin.ext (fieldNibble_wordOfDigits height.isLt x y)
    rw [h]
    simp (disch := first | decide | exact height.isLt) only [decode?, digitAt_wordOfDigits,
      fieldX_wordOfDigits, fieldY_wordOfDigits, hheight]
  | skipEqByte | skipNeByte | loadByte | addByte | random =>
    rw [h]
    simp (disch := decide) only [decode?, digitAt_wordOfByte, fieldX_wordOfByte,
      fieldByte_wordOfByte]
  | _ =>
    rw [h]
    simp (disch := decide) only [decode?, digitAt_wordOfByte, fieldX_wordOfByte,
      fieldByte_wordOfByte]
    rfl

/-- No word asks for two instructions. -/
theorem exists_encodedBy_iff {i : Instruction} (hi : i.EncodedBy word) {P : Instruction → Prop} :
    (∃ j : Instruction, j.EncodedBy word ∧ P j) ↔ P i := by
  constructor
  · -- Decoding gives one instruction at most.
    rintro ⟨j, hj, hP⟩
    have hsame := (decode?_of_encodedBy hi).symm.trans (decode?_of_encodedBy hj)
    cases hsame
    exact hP
  · intro hP
    exact ⟨i, hi, hP⟩

/-- A member of the family `8` is in the table. -/
theorem encodedBy_of_arithmetic? {i : Instruction} {x y : Register} {last : Nat}
    (h : arithmetic? x y last = some i) : i.EncodedBy (wordOfDigits 0x8 x y last) := by
  unfold arithmetic? at h
  split at h
  -- The shifts leave the second register open, and an unknown last digit is no instruction.
  case h_7 | h_9 =>
    cases h
    exact ⟨y, rfl⟩
  case h_10 => cases h
  all_goals
    cases h
    rfl

/-- A member of the family `E` is in the table. -/
theorem encodedBy_of_keyTest? {i : Instruction} {x : Register} {byte : UInt8}
    (h : keyTest? x byte.toNat = some i) : i.EncodedBy (wordOfByte 0xE x byte) := by
  unfold keyTest? at h
  split at h
  case h_3 => cases h
  all_goals
    rename_i hb
    cases h
    exact congrArg (wordOfByte 0xE x) (UInt8.toNat_inj.mp hb)

/-- A member of the family `F` is in the table. -/
theorem encodedBy_of_transfer? {i : Instruction} {x : Register} {byte : UInt8}
    (h : transfer? x byte.toNat = some i) : i.EncodedBy (wordOfByte 0xF x byte) := by
  unfold transfer? at h
  split at h
  case h_10 => cases h
  all_goals
    rename_i hb
    cases h
    exact congrArg (wordOfByte 0xF x) (UInt8.toNat_inj.mp hb)

/-! ## Words that are no instruction -/

/-- In the family `0` there are two instructions and no others. -/
theorem decode?_of_family_zero (h0 : 0 ≤ word) (h1 : word < 0x1000) (hclear : word ≠ 0x00E0)
    (hret : word ≠ 0x00EE) : decode? word = none := by
  have hfamily : (digitAt word 0x1000).val = 0 := by
    apply digitAt_eq
    omega
  simp only [decode?, hfamily]
  show (if word = 0x00E0 then some clear else if word = 0x00EE then some ret else none) = none
  rw [if_neg hclear, if_neg hret]

/-- The first bytes of the family `F` are free. -/
theorem decode?_of_family_F {x : Register} {byte : UInt8} (h : byte.toNat < 0x07) :
    decode? (wordOfByte 0xF x byte) = none := by
  simp (disch := decide) only [decode?, digitAt_wordOfByte, fieldX_wordOfByte,
    fieldByte_wordOfByte]
  show transfer? x byte.toNat = none
  unfold transfer?
  split <;> first | omega | rfl

/-! ## Every word has all three layouts -/

section Layouts

variable (h0 : 0 ≤ word) (h1 : word ≤ 0xFFFF)
include h0 h1

/-- A word is the layout of its family and its address. -/
theorem eq_wordOfAddress {family : Nat} (hf : (digitAt word 0x1000).val = family) :
    word = wordOfAddress family (fieldAddress word) := by
  have := digitAt_val word 0x1000
  have := fieldAddress_val word
  unfold wordOfAddress
  omega

/-- A word is the layout of its family, its first register and its byte. -/
theorem eq_wordOfByte {family : Nat} (hf : (digitAt word 0x1000).val = family) :
    word = wordOfByte family (fieldX word) (fieldByte word) := by
  have := digitAt_val word 0x1000
  have := digitAt_val word 0x100
  have := fieldByte_toNat word
  unfold wordOfByte fieldX
  omega

/-- A word is the layout of its family and its other three digits. -/
theorem eq_wordOfDigits {family : Nat} (hf : (digitAt word 0x1000).val = family) :
    word = wordOfDigits family (fieldX word) (fieldY word) (fieldNibble word).val := by
  have := digitAt_val word 0x1000
  have := digitAt_val word 0x100
  have := digitAt_val word 0x10
  have := digitAt_val word 0x1
  unfold wordOfDigits fieldX fieldY fieldNibble
  omega

/-- A word that asks for an instruction is in the table. -/
theorem encodedBy_of_decode? {i : Instruction} (h : decode? word = some i) :
    i.EncodedBy word := by
  unfold decode? at h
  simp only at h
  split at h
  -- In the family `0` the whole word is compared.
  case h_1 =>
    split at h
    · cases h
      assumption
    · split at h
      · cases h
        assumption
      · cases h
  case h_2 hf | h_3 hf | h_11 hf | h_12 hf =>
    cases h
    exact eq_wordOfAddress h0 h1 hf
  case h_4 hf | h_5 hf | h_7 hf | h_8 hf | h_13 hf =>
    cases h
    exact eq_wordOfByte h0 h1 hf
  case h_6 hf | h_10 hf =>
    cases h
    exact ⟨_, (fieldNibble word).isLt, eq_wordOfDigits h0 h1 hf⟩
  case h_9 hf =>
    rw [eq_wordOfDigits h0 h1 hf]
    exact encodedBy_of_arithmetic? h
  case h_14 hf =>
    cases h
    exact eq_wordOfDigits h0 h1 hf
  case h_15 hf =>
    rw [eq_wordOfByte h0 h1 hf]
    exact encodedBy_of_keyTest? h
  case h_16 =>
    -- The other fifteen digits are taken, so this family is the last.
    have hf : (digitAt word 0x1000).val = 0xF := by
      have hlt := (digitAt word 0x1000).isLt
      grind
    rw [eq_wordOfByte h0 h1 hf]
    exact encodedBy_of_transfer? h

/-- Decoding follows the table. -/
theorem decode?_eq_some_iff {i : Instruction} : decode? word = some i ↔ i.EncodedBy word :=
  ⟨encodedBy_of_decode? h0 h1, decode?_of_encodedBy⟩

/-- A word outside the table is no instruction. -/
theorem decode?_eq_none_iff : decode? word = none ↔ ¬ ∃ i : Instruction, i.EncodedBy word := by
  simp only [← decode?_eq_some_iff h0 h1, ← Option.isSome_iff_exists, Option.not_isSome_iff_eq_none]

end Layouts

end Chip8.Instruction
