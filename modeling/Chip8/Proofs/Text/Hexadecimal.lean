import Chip8.Proofs.Text.Printing
import Chip8.Proofs.Text.Separation
import Chip8.Text.Hexadecimal

/-!
# Chip8.Proofs.Text.Hexadecimal — numbers of a report are told apart

A number is filled up with zeros to a least width, and has more digits than that if it needs
them. The reader of numbers reads it back in any case (`writes_hexChars`), so different
numbers are printed differently (`hexChars_injective`).

A number that has room in the width is printed with just as many characters
(`length_hexChars`), and then it is told apart from what follows it (`separable_hex`). Any
other number is told apart if a character follows that is no digit (`not_mem_hexChars`).
-/

namespace Chip8.Text

variable {width : Nat} {n : Int} {c : Char}

/-! ## Reading back -/

/-- A printed number is its sign and a run of digits. -/
theorem exists_run_of_hexChars (width : Nat) (n : Int) :
    ∃ run digits, hexChars width n = signChars n ++ run ∧ DigitRun true run digits ∧
      numberOf 16 digits = n.natAbs := by
  obtain ⟨digits, hrun, hvalue⟩ := digitRun_toDigits readsBase_sixteen n.natAbs
  -- The run are the zeros that fill it up and the digits behind them.
  obtain ⟨more, hmore, hsame⟩ :=
    hrun.zeros 16 (width - (signChars n).length - (Nat.toDigits 16 n.natAbs).length)
  exact ⟨_, more, List.append_assoc .., hmore, hsame.trans hvalue⟩

/-- A printed number writes the number. -/
theorem writes_hexChars (width : Nat) (n : Int) : WritesHexadecimal (hexChars width n) n := by
  obtain ⟨run, digits, hchars, hrun, hvalue⟩ := exists_run_of_hexChars width n
  have hblank : AllBlank [] := by
    intro c hc
    cases hc
  -- Only a negative number has a sign, and then it is a minus.
  have hsign : signChars n ∈ signs (decide (n < 0)) ∧ n = signed (decide (n < 0)) n.natAbs := by
    unfold signChars
    rcases Int.lt_or_le n 0 with hneg | hpos
    · rw [if_pos hneg, decide_eq_true hneg]
      exact ⟨List.mem_singleton_self _, by simp only [signed, if_true]; omega⟩
    · rw [if_neg (Int.not_lt.mpr hpos), decide_eq_false (Int.not_lt.mpr hpos)]
      exact ⟨List.mem_cons_self, (Int.natAbs_of_nonneg hpos).symm⟩
  -- Neither blanks nor a mark of base 16 are printed.
  refine ⟨decide (n < 0), [], run, digits, ?_, .none, hrun, hvalue ▸ hsign.2⟩
  refine ⟨[], signChars n, [], ?_, hblank, hblank, hsign.1⟩
  rw [hchars, List.append_nil, List.nil_append, List.nil_append]

/-- A printed number is read back. -/
theorem hexadecimal?_hexChars (width : Nat) (n : Int) :
    hexadecimal? (hexChars width n) = some n :=
  hexadecimal?_eq_some_iff.mpr (writes_hexChars width n)

/-- Different numbers are printed differently. -/
theorem hexChars_injective (width : Nat) : Function.Injective (hexChars width) := by
  intro a b h
  have ha := hexadecimal?_hexChars width a
  rw [h, hexadecimal?_hexChars] at ha
  exact (Option.some.inj ha).symm

theorem hex_injective (width : Nat) : Function.Injective (hex width) := by
  intro a b h
  exact hexChars_injective width (String.ofList_injective h)

/-- What is no digit and no sign is not in a printed number. -/
theorem not_mem_hexChars (hc : digitValue? true c = none) (hscore : c ≠ '_') (hsign : c ≠ '-') :
    c ∉ hexChars width n := by
  -- A sign comes first, and all behind it are digits.
  obtain ⟨run, digits, hchars, hrun, -⟩ := exists_run_of_hexChars width n
  have hfront : c ∉ signChars n := by
    unfold signChars
    split
    · exact mt List.mem_singleton.mp hsign
    · exact List.not_mem_nil
  rw [hchars, List.mem_append, not_or]
  exact ⟨hfront, hrun.not_mem hc hscore⟩

/-! ## Widths -/

/-- The numbers that have room in so many digits. -/
def HasRoom (width : Nat) (n : Int) : Prop := 0 ≤ n ∧ n < Nat.pow 16 width

/-- A number that has room is printed in the width, and not beyond. -/
theorem length_hexChars (hwidth : 0 < width) (hn : HasRoom width n) :
    (hexChars width n).length = width := by
  obtain ⟨hpos, hlt⟩ := hn
  have hdigits : (Nat.toDigits 16 n.natAbs).length ≤ width := by
    refine (Nat.length_toDigits_le_iff (by decide) hwidth).mpr ?_
    show n.natAbs < Nat.pow 16 width
    omega
  have hsign : signChars n = [] := if_neg (Int.not_lt.mpr hpos)
  refine Nat.le_antisymm ?_ (le_length_hexChars width n)
  -- Without a sign the zeros make up for just what the digits leave of the width.
  simp only [hexChars, hsign, List.nil_append, List.length_append, List.length_replicate,
    List.length_nil]
  omega

theorem length_ofString_hex (hwidth : 0 < width) (hn : HasRoom width n) :
    (ofString (hex width n)).length = width := by
  rw [length_ofString, toList_hex, length_hexChars hwidth hn]

/-- Numbers of one width are told apart from what follows them. -/
theorem separable_hex (hwidth : 0 < width) :
    Separable (HasRoom width) fun n => ofString (hex width n) :=
  separable_of_length (fun _ hn => length_ofString_hex hwidth hn) fun _ _ _ _ h =>
    hex_injective width (ofString_injective h)

/-! ## Rows of bytes -/

/-- A byte has room in two digits. -/
theorem hasRoom_byte (byte : UInt8) : HasRoom 2 (byte.toNat : Int) := by
  have hlt := byte.toNat_lt
  constructor
  · omega
  · show (byte.toNat : Int) < (0x100 : Nat)
    omega

theorem toList_byteText (bytes : List UInt8) :
    (byteText bytes).toList = bytes.flatMap fun b => hexChars 2 b.toNat := String.toList_ofList

/-- Bytes are printed two characters each. -/
theorem length_byteText (bytes : List UInt8) :
    (byteText bytes).toList.length = 2 * bytes.length := by
  rw [toList_byteText]
  induction bytes with
  | nil => rfl
  | cons byte bytes ih =>
    rw [List.flatMap_cons, List.length_append, ih, length_hexChars (by decide) (hasRoom_byte byte),
      List.length_cons]
    omega

/-- Different rows of bytes are printed differently. -/
theorem byteText_injective : Function.Injective byteText := by
  intro xs ys h
  -- Nothing stands between the bytes, but all of them have two digits.
  have hseparable : Separable (fun _ : UInt8 => True) fun b => hexChars 2 b.toNat := by
    refine separable_of_length (fun b _ => length_hexChars (by decide) (hasRoom_byte b)) ?_
    intro a b _ _ h
    exact UInt8.toNat_inj.mp (Int.ofNat.inj (hexChars_injective 2 h))
  have hprinted (b : UInt8) : hexChars 2 b.toNat ≠ [] := by
    intro hempty
    have hlength := length_hexChars (by decide) (hasRoom_byte b)
    rw [hempty] at hlength
    cases hlength
  exact hseparable.flatMap_inj (fun b _ => hprinted b) (fun _ _ => trivial) (fun _ _ => trivial)
    (String.ofList_injective h)

end Chip8.Text
