import Chip8.Proofs.Text.Numeral

/-!
# Chip8.Proofs.Text.Printing — printed numbers are read back

A whole number may be printed in many ways: with a sign or, where none is needed, without
one, with zeros in front of its digits, and with blanks around it. `Prints` are the texts
that come of that, as long as they have no more digits than a number may have, and
`Prints.writes` says that each of them writes the number. With `decimal?_eq_some_iff` this
means that the number is read back.

The digits are printed by division and read by sums, one digit at the end of the others
(`digitRun_toDigits`). That holds in every base whose digits are read back one by one
(`ReadsBase`), which are base 10 and, with letters, base 16.
-/

namespace Chip8.Text

variable {letters : Bool} {base : Nat} {c : Char} {d : Nat} {text run : List Char}
  {digits : List Nat} {n : Int}

/-- The decimal digits of a number, with so many zeros in front. -/
def digitsOf (zeros n : Nat) : List Char := List.replicate zeros '0' ++ Nat.toDigits 10 n

/-- The text prints the number `n`: its digits with a sign that suits it, zeros in front of
them and blanks around all, each of these only if wanted. -/
def Prints (text : List Char) (n : Int) : Prop :=
  ∃ negative zeros, Framed text negative (digitsOf zeros n.natAbs) ∧
    n = signed negative n.natAbs ∧ (digitsOf zeros n.natAbs).length ≤ maxDecimalDigits

/-! ## Digits -/

/-- The characters of the digits below a base are read as these digits. -/
def ReadsBase (letters : Bool) (base : Nat) : Prop :=
  1 < base ∧ ∀ d < base, digitValue? letters (Nat.digitChar d) = some d

theorem readsBase_ten : ReadsBase false 10 := ⟨by decide, by decide⟩

theorem readsBase_sixteen : ReadsBase true 16 := ⟨by decide, by decide⟩

/-- A run goes on with a digit behind it. -/
theorem DigitRun.concat (h : DigitRun letters run digits) (hd : digitValue? letters c = some d) :
    DigitRun letters (run ++ [c]) (digits ++ [d]) := by
  -- By induction on the run, since it grows at its front.
  induction h with
  | last hfirst => exact .next hfirst (.last hd)
  | next hfirst _ ih => exact .next hfirst ih
  | spaced hfirst _ ih => exact .spaced hfirst ih

theorem numberOf_concat (base : Nat) (digits : List Nat) (d : Nat) :
    numberOf base (digits ++ [d]) = base * numberOf base digits + d := by
  rw [numberOf, List.foldl_append]
  rfl

/-- The digits that a number is printed with denote it. -/
theorem digitRun_toDigits (h : ReadsBase letters base) (n : Nat) :
    ∃ digits, DigitRun letters (Nat.toDigits base n) digits ∧ numberOf base digits = n := by
  obtain ⟨hbase, hdigit⟩ := h
  -- By strong induction, as the number is divided by the base.
  induction n using Nat.strongRecOn with
  | _ n ih =>
    rcases Nat.lt_or_ge n base with hsmall | hlarge
    · rw [Nat.toDigits_of_lt_base hsmall]
      refine ⟨[n], .last (hdigit n hsmall), ?_⟩
      rw [numberOf, List.foldl_cons, List.foldl_nil, Nat.mul_zero, Nat.zero_add]
    · -- The last digit is the remainder, and the quotient is printed in front of it.
      have hquotient : n / base < n := Nat.div_lt_self (by omega) hbase
      obtain ⟨digits, hrun, hvalue⟩ := ih (n / base) hquotient
      have hlast := hdigit (n % base) (Nat.mod_lt n (by omega))
      rw [Nat.toDigits_of_base_le hbase hlarge]
      refine ⟨digits ++ [n % base], hrun.concat hlast, ?_⟩
      rw [numberOf_concat, hvalue, Nat.div_add_mod]

/-- Zeros in front of a run do not change the number. -/
theorem DigitRun.zeros (h : DigitRun letters run digits) (base zeros : Nat) :
    ∃ more, DigitRun letters (List.replicate zeros '0' ++ run) more ∧
      numberOf base more = numberOf base digits := by
  have hzero : digitValue? letters '0' = some 0 := by
    cases letters with
    | true => decide
    | false => decide
  -- One zero after the other, and none of them counts.
  induction zeros with
  | zero => exact ⟨digits, h, rfl⟩
  | succ zeros ih =>
    obtain ⟨more, hrun, hvalue⟩ := ih
    exact ⟨0 :: more, .next hzero hrun, hvalue⟩

/-! ## Numbers -/

/-- A text that prints a number writes it. -/
theorem Prints.writes (h : Prints text n) : WritesDecimal text n := by
  obtain ⟨negative, zeros, hframed, hsigned, hlength⟩ := h
  obtain ⟨digits, hrun, hvalue⟩ := digitRun_toDigits readsBase_ten n.natAbs
  obtain ⟨more, hmore, hsame⟩ := hrun.zeros 10 zeros
  refine ⟨negative, _, more, hframed, hmore, Nat.le_trans hmore.bounds.1 hlength, ?_⟩
  rw [hsame, hvalue]
  exact hsigned

/-- What is no digit and no underscore is in no run. -/
theorem DigitRun.not_mem (h : DigitRun letters run digits) (hc : digitValue? true c = none)
    (hscore : c ≠ '_') : c ∉ run := by
  have hother {digit : Char} {d : Nat} (hd : digitValue? letters digit = some d) : c ≠ digit := by
    rintro rfl
    rw [digitValue?_true hd] at hc
    cases hc
  induction h with
  | last hd => simp [hother hd]
  | next hd _ ih => simp [hother hd, ih]
  | spaced hd _ ih => simp [hother hd, hscore, ih]

/-- No comma is needed to write a number. -/
theorem WritesDecimal.comma_not_mem (h : WritesDecimal text n) : ',' ∉ text := by
  obtain ⟨negative, run, digits, hframed, hrun, -, -⟩ := h
  obtain ⟨before, sign, after, rfl, hbefore, hafter, hsign⟩ := hframed
  have hblank {blanks : List Char} (hblanks : AllBlank blanks) : ',' ∉ blanks := by
    intro hmem
    exact absurd (hblanks ',' hmem) (by decide)
  have hsigns : ∀ negative, ∀ sign ∈ signs negative, ',' ∉ sign := by decide
  have hdigits : ',' ∉ run := hrun.not_mem (by decide) (by decide)
  simp only [List.mem_append, not_or]
  exact ⟨⟨hblank hbefore, hsigns negative sign hsign, hdigits⟩, hblank hafter⟩

end Chip8.Text
