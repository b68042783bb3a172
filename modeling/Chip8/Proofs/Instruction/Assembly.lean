import Chip8.Instruction.Mnemonic
import Chip8.Proofs.Instruction.Encoding
import Chip8.Proofs.Text.Fields
import Chip8.Proofs.Text.Hexadecimal

/-!
# Chip8.Proofs.Instruction.Assembly — mnemonics are read back

A mnemonic has a form: a name, and behind it the operands with a comma between each two of
them (`Form`). A form is read back from its text, operand by operand (`Form.read?_chars`), and
the instruction is read off the form (`instruction?_form`). So there is an assembler for
mnemonics, and it finds the instruction that was written down (`assemble?_mnemonic`).
Instructions with the same mnemonic are the same.

A name may stand for several instructions. What tells them apart are the kinds of their
operands, and these are told apart by their first letter and by the number of digits.
-/

namespace Chip8.Instruction

/-! ## Fields of small numbers

A number that is no longer than a field is found in it. -/

theorem fieldNibble_val (n : Fin 16) : fieldNibble n.val = n := by
  apply Fin.ext
  apply digitAt_eq
  omega

theorem fieldByte_toNat_self (b : UInt8) : fieldByte b.toNat = b := by
  have := b.toNat_lt
  have := fieldByte_toNat b.toNat
  apply UInt8.toNat_inj.mp
  omega

theorem fieldAddress_val_self (target : Fin 4096) : fieldAddress target.val = target := by
  have := fieldAddress_val target.val
  apply Fin.ext
  omega

/-! ## Operands -/

/-- Operands that are written as a word. -/
inductive Keyword where
  | delay
  | sound
  | key
  | glyph
  | decimal
  | index
  | atIndex

/-- The word. -/
def Keyword.text : Keyword → String
  | delay => "DT"
  | sound => "ST"
  | key => "K"
  | glyph => "F"
  | decimal => "B"
  | index => "I"
  | atIndex => "[I]"

/-- What may stand behind the name of an instruction. -/
inductive Operand where
  | register (x : Register)
  | nibble (n : Fin 16)
  | byte (byte : UInt8)
  | address (target : Fin 4096)
  | keyword (word : Keyword)

namespace Operand

/-- An operand as it is written. -/
def text : Operand → String
  | register x => registerName x
  | nibble n => "0x" ++ Text.hex 1 n.val
  | byte b => byteOperand b
  | address target => addressOperand target
  | keyword word => word.text

/-- The number that is meant by so many digits. -/
def number? (n : Int) : Nat → Option Operand
  | 1 => some (nibble (fieldNibble n))
  | 2 => some (byte (fieldByte n))
  | 3 => some (address (fieldAddress n))
  | _ => none

/-- Reads an operand. -/
def read? : List Char → Option Operand
  | 'V' :: digits => (Text.hexadecimal? digits).map fun n => register (fieldNibble n)
  | '0' :: 'x' :: digits => (Text.hexadecimal? digits).bind fun n => number? n digits.length
  | ['D', 'T'] => some (keyword .delay)
  | ['S', 'T'] => some (keyword .sound)
  | ['K'] => some (keyword .key)
  | ['F'] => some (keyword .glyph)
  | ['B'] => some (keyword .decimal)
  | ['I'] => some (keyword .index)
  | ['[', 'I', ']'] => some (keyword .atIndex)
  | _ => none

/-- Reads an operand behind a blank. -/
def readBehindBlank? : List Char → Option Operand
  | ' ' :: operand => read? operand
  | _ => none

theorem toList_registerName (x : Register) :
    (registerName x).toList = 'V' :: Text.hexChars 1 x.val := by
  rw [registerName, String.toList_append, Text.toList_hex]
  rfl

theorem toList_number (width : Nat) (n : Int) :
    ("0x" ++ Text.hex width n).toList = '0' :: 'x' :: Text.hexChars width n := by
  rw [String.toList_append, Text.toList_hex]
  rfl

/-- A number with so many digits is read back by the number of its digits. -/
theorem read?_number {width : Nat} {n : Int} (hwidth : 0 < width) (hn : Text.HasRoom width n) :
    read? ("0x" ++ Text.hex width n).toList = number? n width := by
  rw [toList_number, read?, Text.hexadecimal?_hexChars, Option.bind_some,
    Text.length_hexChars hwidth hn]

/-- An operand is read back. -/
theorem read?_text (o : Operand) : read? o.text.toList = some o := by
  cases o with
  | register x =>
    rw [text, toList_registerName, read?, Text.hexadecimal?_hexChars, Option.map_some,
      fieldNibble_val]
  | nibble n =>
    -- How many digits there are says how large the number may be.
    have hn : Text.HasRoom 1 (n.val : Int) := ⟨by omega, by show (n.val : Int) < (16 : Nat); omega⟩
    rw [text, read?_number (by decide) hn, number?, fieldNibble_val]
  | byte b =>
    rw [text, byteOperand, read?_number (by decide) (Text.hasRoom_byte b), number?,
      fieldByte_toNat_self]
  | address target =>
    have ht : Text.HasRoom 3 (target.val : Int) :=
      ⟨by omega, by show (target.val : Int) < (4096 : Nat); omega⟩
    rw [text, addressOperand, read?_number (by decide) ht, number?, fieldAddress_val_self]
  | keyword word =>
    cases word <;> rfl

/-- No comma is needed to write an operand. -/
theorem comma_not_mem (o : Operand) : ',' ∉ o.text.toList := by
  have hdigits (width : Nat) (n : Int) : ',' ∉ Text.hexChars width n :=
    Text.not_mem_hexChars (by decide) (by decide) (by decide)
  have hnumber (width : Nat) (n : Int) : ',' ∉ ("0x" ++ Text.hex width n).toList := by
    rw [toList_number]
    simp [hdigits]
  cases o with
  | register x =>
    rw [text, toList_registerName]
    simp [hdigits]
  | nibble n => exact hnumber 1 n.val
  | byte b => exact hnumber 2 b.toNat
  | address target => exact hnumber 3 target.val
  | keyword word => cases word <;> decide

end Operand

/-! ## Forms -/

/-- The name of an instruction and its operands. -/
structure Form where
  name : String
  operands : List Operand

namespace Form

variable {f : Form}

/-- The operands of a form as they are written, each behind a blank. -/
def fields (f : Form) : List (List Char) := f.operands.map fun o => ' ' :: o.text.toList

/-- A form as it is written. -/
def chars (f : Form) : List Char := f.name.toList ++ [','].intercalate f.fields

/-- Reads a form. The name ends before the first blank. -/
def read? (text : List Char) : Option Form :=
  let name := String.ofList (text.takeWhile (· != ' '))
  match text.dropWhile (· != ' ') with
  | [] => some ⟨name, []⟩
  | rest => ((rest.splitOn ',').mapM Operand.readBehindBlank?).map fun operands => ⟨name, operands⟩

/-- The operands are read back one by one. -/
theorem mapM_fields (f : Form) : f.fields.mapM Operand.readBehindBlank? = some f.operands := by
  refine Text.mapM_eq_some_iff.mpr (List.forall₂_map_left_iff.mpr (List.forall₂_same.mpr ?_))
  intro o _
  exact o.read?_text

/-- No operand has a comma, so the commas are where the operands part. -/
theorem splitOn_fields (h : f.operands ≠ []) :
    ([','].intercalate f.fields).splitOn ',' = f.fields := by
  have hplain : ∀ field ∈ f.fields, ',' ∉ field := by
    intro field hfield
    obtain ⟨o, -, rfl⟩ := List.mem_map.mp hfield
    rw [List.mem_cons, not_or]
    exact ⟨by decide, o.comma_not_mem⟩
  exact List.splitOn_intercalate ',' hplain (mt List.map_eq_nil_iff.mp h)

/-- What is behind the name begins with a blank. -/
theorem exists_behind_blank (h : f.operands ≠ []) :
    ∃ rest, [','].intercalate f.fields = ' ' :: rest := by
  -- None, one, and more than one operand are written in their own ways.
  rcases f with ⟨name, _ | ⟨o, _ | ⟨second, others⟩⟩⟩
  · exact absurd rfl h
  · exact ⟨_, List.intercalate_singleton⟩
  · exact ⟨_, List.intercalate_cons_cons⟩

/-- A form is read back. -/
theorem read?_chars (hname : ' ' ∉ f.name.toList) : read? f.chars = some f := by
  have hplain : ∀ c ∈ f.name.toList, (c != ' ') = true := by
    intro c hc
    exact bne_iff_ne.mpr fun h => hname (h ▸ hc)
  unfold read? chars
  rw [List.takeWhile_append_of_pos hplain, List.dropWhile_append_of_pos hplain]
  by_cases hoperands : f.operands = []
  · have hnone : f.fields = [] := List.map_eq_nil_iff.mpr hoperands
    rw [hnone]
    show some (Form.mk (String.ofList (f.name.toList ++ [])) []) = _
    rw [List.append_nil, String.ofList_toList, ← hoperands]
  · -- The name ends, and what is behind it is not empty.
    obtain ⟨rest, hrest⟩ := exists_behind_blank hoperands
    have hsplit := splitOn_fields hoperands
    rw [hrest] at hsplit ⊢
    show (((' ' :: rest).splitOn ',').mapM Operand.readBehindBlank?).map
      (fun operands => Form.mk (String.ofList (f.name.toList ++ [])) operands) = _
    rw [hsplit, mapM_fields, List.append_nil, String.ofList_toList, Option.map_some]

theorem toList_operands (a b : String) :
    (Instruction.operands a b).toList = a.toList ++ ',' :: ' ' :: b.toList := by
  rw [Instruction.operands, String.toList_append, String.toList_append, List.append_assoc]
  rfl

section

-- A mnemonic is put together of a name that has its blank already.
variable {name named : String} (h : named.toList = name.toList ++ [' '])
include h

theorem chars_one (a : Operand) : (Form.mk name [a]).chars = (named ++ a.text).toList := by
  rw [String.toList_append, h, List.append_assoc]
  simp only [chars, fields, List.map_cons, List.map_nil, List.intercalate_singleton]
  rfl

theorem chars_two (a b : Operand) :
    (Form.mk name [a, b]).chars = (named ++ Instruction.operands a.text b.text).toList := by
  rw [String.toList_append, h, toList_operands]
  simp only [chars, fields, List.map_cons, List.map_nil, List.intercalate_cons_cons,
    List.intercalate_singleton, List.append_assoc]
  rfl

theorem chars_three (a b c : Operand) :
    (Form.mk name [a, b, c]).chars =
      (named ++ Instruction.operands a.text (Instruction.operands b.text c.text)).toList := by
  rw [String.toList_append, h, toList_operands, toList_operands]
  simp only [chars, fields, List.map_cons, List.map_nil, List.intercalate_cons_cons,
    List.intercalate_singleton, List.append_assoc]
  rfl

end

/-- The instruction that a form stands for. -/
def instruction? : Form → Option Instruction
  | ⟨"CLS", []⟩ => some .clear
  | ⟨"RET", []⟩ => some .ret
  | ⟨"JP", [.address target]⟩ => some (.jump target)
  | ⟨"JP", [.register _, .address target]⟩ => some (.jumpFrom target)
  | ⟨"CALL", [.address target]⟩ => some (.call target)
  | ⟨"SE", [.register x, .byte byte]⟩ => some (.skipEqByte x byte)
  | ⟨"SE", [.register x, .register y]⟩ => some (.skipEq x y)
  | ⟨"SNE", [.register x, .byte byte]⟩ => some (.skipNeByte x byte)
  | ⟨"SNE", [.register x, .register y]⟩ => some (.skipNe x y)
  | ⟨"LD", [.register x, .byte byte]⟩ => some (.loadByte x byte)
  | ⟨"LD", [.register x, .register y]⟩ => some (.load x y)
  | ⟨"LD", [.keyword .index, .address target]⟩ => some (.loadIndex target)
  | ⟨"LD", [.register x, .keyword .delay]⟩ => some (.readDelay x)
  | ⟨"LD", [.register x, .keyword .key]⟩ => some (.waitKey x)
  | ⟨"LD", [.keyword .delay, .register x]⟩ => some (.setDelay x)
  | ⟨"LD", [.keyword .sound, .register x]⟩ => some (.setSound x)
  | ⟨"LD", [.keyword .glyph, .register x]⟩ => some (.loadGlyph x)
  | ⟨"LD", [.keyword .decimal, .register x]⟩ => some (.storeDecimal x)
  | ⟨"LD", [.keyword .atIndex, .register x]⟩ => some (.storeRegisters x)
  | ⟨"LD", [.register x, .keyword .atIndex]⟩ => some (.loadRegisters x)
  | ⟨"ADD", [.register x, .byte byte]⟩ => some (.addByte x byte)
  | ⟨"ADD", [.register x, .register y]⟩ => some (.add x y)
  | ⟨"ADD", [.keyword .index, .register x]⟩ => some (.addIndex x)
  | ⟨"OR", [.register x, .register y]⟩ => some (.or x y)
  | ⟨"AND", [.register x, .register y]⟩ => some (.and x y)
  | ⟨"XOR", [.register x, .register y]⟩ => some (.xor x y)
  | ⟨"SUB", [.register x, .register y]⟩ => some (.sub x y)
  | ⟨"SUBN", [.register x, .register y]⟩ => some (.subFrom x y)
  | ⟨"SHR", [.register x]⟩ => some (.shiftRight x)
  | ⟨"SHL", [.register x]⟩ => some (.shiftLeft x)
  | ⟨"RND", [.register x, .byte byte]⟩ => some (.random x byte)
  | ⟨"DRW", [.register x, .register y, .nibble height]⟩ => some (.draw x y height)
  | ⟨"SKP", [.register x]⟩ => some (.skipHeld x)
  | ⟨"SKNP", [.register x]⟩ => some (.skipNotHeld x)
  | _ => none

end Form

/-! ## The table -/

/-- The form of an instruction. -/
def form : Instruction → Form
  | clear => ⟨"CLS", []⟩
  | ret => ⟨"RET", []⟩
  | jump target => ⟨"JP", [.address target]⟩
  | call target => ⟨"CALL", [.address target]⟩
  | skipEqByte x byte => ⟨"SE", [.register x, .byte byte]⟩
  | skipNeByte x byte => ⟨"SNE", [.register x, .byte byte]⟩
  | skipEq x y => ⟨"SE", [.register x, .register y]⟩
  | skipNe x y => ⟨"SNE", [.register x, .register y]⟩
  | loadByte x byte => ⟨"LD", [.register x, .byte byte]⟩
  | addByte x byte => ⟨"ADD", [.register x, .byte byte]⟩
  | load x y => ⟨"LD", [.register x, .register y]⟩
  | or x y => ⟨"OR", [.register x, .register y]⟩
  | and x y => ⟨"AND", [.register x, .register y]⟩
  | xor x y => ⟨"XOR", [.register x, .register y]⟩
  | add x y => ⟨"ADD", [.register x, .register y]⟩
  | sub x y => ⟨"SUB", [.register x, .register y]⟩
  | shiftRight x => ⟨"SHR", [.register x]⟩
  | subFrom x y => ⟨"SUBN", [.register x, .register y]⟩
  | shiftLeft x => ⟨"SHL", [.register x]⟩
  | loadIndex target => ⟨"LD", [.keyword .index, .address target]⟩
  | jumpFrom target => ⟨"JP", [.register offsetRegister, .address target]⟩
  | random x byte => ⟨"RND", [.register x, .byte byte]⟩
  | draw x y height => ⟨"DRW", [.register x, .register y, .nibble height]⟩
  | skipHeld x => ⟨"SKP", [.register x]⟩
  | skipNotHeld x => ⟨"SKNP", [.register x]⟩
  | readDelay x => ⟨"LD", [.register x, .keyword .delay]⟩
  | waitKey x => ⟨"LD", [.register x, .keyword .key]⟩
  | setDelay x => ⟨"LD", [.keyword .delay, .register x]⟩
  | setSound x => ⟨"LD", [.keyword .sound, .register x]⟩
  | addIndex x => ⟨"ADD", [.keyword .index, .register x]⟩
  | loadGlyph x => ⟨"LD", [.keyword .glyph, .register x]⟩
  | storeDecimal x => ⟨"LD", [.keyword .decimal, .register x]⟩
  | storeRegisters x => ⟨"LD", [.keyword .atIndex, .register x]⟩
  | loadRegisters x => ⟨"LD", [.register x, .keyword .atIndex]⟩

theorem blank_not_mem_name (i : Instruction) : ' ' ∉ i.form.name.toList := by
  cases i <;> (simp only [form]; decide)

/-- No two instructions have the same form. -/
theorem instruction?_form (i : Instruction) : i.form.instruction? = some i := by
  -- Each name with its kinds of operands has one row of the table.
  cases i <;> rfl

/-- A mnemonic is its form as it is written. -/
theorem chars_form (i : Instruction) : i.form.chars = i.mnemonic.toList := by
  cases i with
  | clear | ret => rfl
  | jump | call | shiftRight | shiftLeft | skipHeld | skipNotHeld =>
    exact Form.chars_one (by rfl) _
  | draw => exact Form.chars_three (by rfl) _ _ _
  | _ =>
    -- All others have two operands.
    exact Form.chars_two (by rfl) _ _

/-- Reads a mnemonic. -/
def assemble? (text : List Char) : Option Instruction := (Form.read? text).bind Form.instruction?

/-- The instruction that was written down is found again. -/
theorem assemble?_mnemonic (i : Instruction) : assemble? i.mnemonic.toList = some i := by
  rw [assemble?, ← chars_form, Form.read?_chars i.blank_not_mem_name]
  exact i.instruction?_form

example : assemble? "DRW Va, Vb, 0x5".toList = some (.draw 0xA 0xB 5) := by decide

/-- No two instructions have the same mnemonic. -/
theorem mnemonic_injective : Function.Injective mnemonic := by
  -- The assembler undoes the mnemonic.
  intro i j h
  have hi := i.assemble?_mnemonic
  rw [h, assemble?_mnemonic] at hi
  exact (Option.some.inj hi).symm

end Chip8.Instruction
