import Chip8.Text.Numeral

/-!
# Chip8.Proofs.Text.Numeral — the texts that write a whole number

A reader of numbers drops blanks, a sign, perhaps the mark of base 16, and then takes
digits. Here the texts that write a number are put together from these parts instead:

* `DigitRun` — digits with at most one underscore between two of them.
* `Framed` — a body with a sign in front of it and blanks around both.
* `WritesDecimal` and `WritesHexadecimal` — the texts that write a number in base 10 and base 16.

`decimal?_eq_some_iff` and `hexadecimal?_eq_some_iff` say that a number is read exactly
from the texts that write it. That rests on the parts being easy to tell apart: no digit of
any script is blank, a sign or an underscore (`separators`).
-/

namespace Chip8.Text

variable {letters negative : Bool} {c : Char} {d : Nat} {text body run cs : List Char}
  {digits : List Nat} {n : Int}

/-! ## Digits -/

/-- The codes of what may stand around digits and between them: signs, the underscore and
the blanks. -/
def separators : List Nat := '+'.toNat :: '-'.toNat :: '_'.toNat :: blankCodes

/-- A decimal digit is a digit in every base. -/
theorem digitValue?_true (h : digitValue? letters c = some d) : digitValue? true c = some d := by
  cases letters with
  | true => exact h
  | false =>
    simp only [digitValue?] at h ⊢
    split at h
    · exact h
    · cases h

/-- No digit of any script is a separator. -/
theorem not_mem_separators_of_digit (h : digitValue? letters c = some d) :
    c.toNat ∉ separators := by
  -- There are few separators, so each of them is looked at.
  have hnone : ∀ code ∈ separators, digitValue? true (Char.ofNat code) = none := by
    decide +kernel
  intro hmem
  have hdigit := digitValue?_true h
  rw [← Char.ofNat_toNat c, hnone _ hmem] at hdigit
  cases hdigit

/-- No digit is blank. -/
theorem isBlank_of_digit (h : digitValue? letters c = some d) : isBlank c = false := by
  rw [isBlank, ← Bool.not_eq_true, List.contains_iff_mem]
  intro hmem
  have hseparator : c.toNat ∈ separators := by
    simp only [separators, List.mem_cons]
    exact .inr (.inr (.inr hmem))
  exact not_mem_separators_of_digit h hseparator

/-- No digit is a sign or an underscore. -/
theorem ne_of_digit (h : digitValue? letters c = some d) : c ≠ '+' ∧ c ≠ '-' ∧ c ≠ '_' := by
  have hmem := not_mem_separators_of_digit h
  refine ⟨?_, ?_, ?_⟩
  · rintro rfl
    exact hmem (by decide)
  · rintro rfl
    exact hmem (by decide)
  · rintro rfl
    exact hmem (by decide)

/-- The characters of digits, between two of which an underscore may stand, and the values
of the digits. -/
inductive DigitRun (letters : Bool) : List Char → List Nat → Prop where
  | last {c : Char} {d : Nat} (hd : digitValue? letters c = some d) : DigitRun letters [c] [d]
  | next {c : Char} {d : Nat} {cs : List Char} {ds : List Nat}
    (hd : digitValue? letters c = some d) (hrest : DigitRun letters cs ds) :
    DigitRun letters (c :: cs) (d :: ds)
  | spaced {c : Char} {d : Nat} {cs : List Char} {ds : List Nat}
    (hd : digitValue? letters c = some d) (hrest : DigitRun letters cs ds) :
    DigitRun letters (c :: '_' :: cs) (d :: ds)

/-- A run begins with a digit. -/
theorem DigitRun.exists_first (h : DigitRun letters run digits) :
    ∃ c rest d, run = c :: rest ∧ digitValue? letters c = some d := by
  cases h with
  | last hd | next hd | spaced hd => exact ⟨_, _, _, rfl, hd⟩

/-- A run ends with a digit. -/
theorem DigitRun.exists_last (h : DigitRun letters run digits) :
    ∃ front c d, run = front ++ [c] ∧ digitValue? letters c = some d := by
  induction h with
  | last hd => exact ⟨[], _, _, rfl, hd⟩
  | next _ _ ih =>
    obtain ⟨front, c, d, rfl, hd⟩ := ih
    exact ⟨_ :: front, c, d, rfl, hd⟩
  | spaced _ _ ih =>
    obtain ⟨front, c, d, rfl, hd⟩ := ih
    exact ⟨_ :: '_' :: front, c, d, rfl, hd⟩

theorem digitRun?_cons {rest : List Char} (hrest : rest ≠ [])
    (hnext : ∀ cs, rest ≠ '_' :: cs) :
    digitRun? letters (c :: rest) = (do
      let d ← digitValue? letters c
      let ds ← digitRun? letters rest
      return d :: ds) :=
  digitRun?.eq_4 letters c rest (fun h => hrest h) fun cs h => hnext cs h

/-- Runs are read as they are put together. -/
theorem digitRun?_eq_some_iff : digitRun? letters run = some digits ↔
    DigitRun letters run digits := by
  constructor
  · -- The recursion of the reader has four cases, of which the first reads nothing.
    intro h
    fun_induction digitRun? letters run generalizing digits with
    | case1 => cases h
    | case2 c =>
      obtain ⟨d, hd, rfl⟩ := Option.map_eq_some_iff.mp h
      exact .last hd
    | case3 c rest ih =>
      obtain ⟨d, hd, h⟩ := Option.bind_eq_some_iff.mp h
      obtain ⟨ds, hds, h⟩ := Option.bind_eq_some_iff.mp h
      cases h
      exact .spaced hd (ih hds)
    | case4 c rest _ _ ih =>
      obtain ⟨d, hd, h⟩ := Option.bind_eq_some_iff.mp h
      obtain ⟨ds, hds, h⟩ := Option.bind_eq_some_iff.mp h
      cases h
      exact .next hd (ih hds)
  · -- Each way to put a run together is one of the cases of the reader.
    intro h
    induction h with
    | last hd => rw [digitRun?, hd, Option.map_some]
    | next hd hrun ih =>
      obtain ⟨first, rest, _, rfl, hfirst⟩ := hrun.exists_first
      obtain ⟨-, -, hscore⟩ := ne_of_digit hfirst
      rw [digitRun?_cons (List.cons_ne_nil _ _) fun _ h => hscore (List.cons.inj h).1, hd, ih]
      rfl
    | spaced hd _ ih =>
      rw [digitRun?, hd, ih]
      rfl

/-! ## Blanks and signs -/

/-- Whether all characters are blank. -/
def AllBlank (cs : List Char) : Prop := ∀ c ∈ cs, isBlank c = true

/-- What is left of a text without its blanks has them around it. -/
theorem exists_blanks (text : List Char) : ∃ before after,
    text = before ++ trimBlanks text ++ after ∧ AllBlank before ∧ AllBlank after := by
  -- The blanks are taken off in front first, and then at the end of what is left.
  let rest := text.dropWhile isBlank
  refine ⟨text.takeWhile isBlank, (rest.reverse.takeWhile isBlank).reverse, ?_, ?_, ?_⟩
  · have hafter : trimBlanks text ++ (rest.reverse.takeWhile isBlank).reverse = rest := by
      rw [trimBlanks, ← List.reverse_append, List.takeWhile_append_dropWhile,
        List.reverse_reverse]
    rw [List.append_assoc, hafter, List.takeWhile_append_dropWhile]
  · exact List.all_eq_true.mp List.all_takeWhile
  · intro c hc
    exact List.all_eq_true.mp List.all_takeWhile c (List.mem_reverse.mp hc)

/-- A text that starts and ends with other characters than blanks. -/
structure Trimmed (cs : List Char) : Prop where
  first : ∃ c rest, cs = c :: rest ∧ isBlank c = false
  last : ∃ front c, cs = front ++ [c] ∧ isBlank c = false

/-- Blanks around such a text are dropped, and no more. -/
theorem Trimmed.trimBlanks_eq (h : Trimmed cs) {before after : List Char}
    (hbefore : AllBlank before) (hafter : AllBlank after) :
    trimBlanks (before ++ cs ++ after) = cs := by
  -- Only the outermost characters matter, and these are not blank.
  obtain ⟨c, rest, hcons, hfirst⟩ := h.first
  obtain ⟨front, e, hconcat, hlast⟩ := h.last
  have hleft : (before ++ cs ++ after).dropWhile isBlank = cs ++ after := by
    rw [List.append_assoc, List.dropWhile_append_of_pos hbefore, hcons, List.cons_append,
      List.dropWhile_cons_of_neg (Bool.not_eq_true _ ▸ hfirst)]
  have hright : (cs ++ after).reverse.dropWhile isBlank = cs.reverse := by
    have hblank : ∀ c ∈ after.reverse, isBlank c = true := by
      intro c hc
      exact hafter c (List.mem_reverse.mp hc)
    rw [List.reverse_append, List.dropWhile_append_of_pos hblank, hconcat, List.reverse_append,
      List.reverse_singleton, List.singleton_append,
      List.dropWhile_cons_of_neg (Bool.not_eq_true _ ▸ hlast)]
  rw [trimBlanks, hleft, hright, List.reverse_reverse]

/-- The signs that may stand in front of a number. Only a positive one needs none. -/
def signs : Bool → List (List Char)
  | false => [[], ['+']]
  | true => [['-']]

/-- The text is a body with a sign in front of it, and blanks around both. -/
def Framed (text : List Char) (negative : Bool) (body : List Char) : Prop :=
  ∃ before sign after, text = before ++ (sign ++ body) ++ after ∧
    AllBlank before ∧ AllBlank after ∧ sign ∈ signs negative

/-- A body that is trimmed and does not start with a sign itself. -/
structure Bare (body : List Char) : Prop extends Trimmed body where
  unsigned : ∀ rest, body ≠ '+' :: rest ∧ body ≠ '-' :: rest

/-- A frame around a bare body is taken off as it was put on. -/
theorem Bare.splitSign_trimBlanks_iff (h : Bare body) :
    splitSign (trimBlanks text) = (negative, body) ↔ Framed text negative body := by
  constructor
  · intro hsplit
    obtain ⟨before, after, htext, hbefore, hafter⟩ := exists_blanks text
    -- Splitting looks for a sign in front of what is left.
    unfold splitSign at hsplit
    split at hsplit
    · next rest hcore =>
      cases hsplit
      rw [hcore] at htext
      exact ⟨before, ['+'], after, htext, hbefore, hafter, by decide⟩
    · next rest hcore =>
      cases hsplit
      rw [hcore] at htext
      exact ⟨before, ['-'], after, htext, hbefore, hafter, by decide⟩
    · cases hsplit
      exact ⟨before, [], after, htext, hbefore, hafter, by decide⟩
  · rintro ⟨before, sign, after, rfl, hbefore, hafter, hsign⟩
    obtain ⟨front, e, hconcat, hlast⟩ := h.last
    -- With its sign the body still has no blank at either end.
    have hsigned {s : Char} (hs : isBlank s = false) : Trimmed (s :: body) :=
      ⟨⟨s, body, rfl, hs⟩, ⟨s :: front, e, by rw [hconcat, List.cons_append], hlast⟩⟩
    -- A negative number has its sign, and any other may have one or none.
    cases negative with
    | true =>
      obtain rfl := List.mem_singleton.mp hsign
      rw [List.singleton_append, (hsigned (by decide)).trimBlanks_eq hbefore hafter]
      rfl
    | false =>
      rcases List.mem_cons.mp hsign with rfl | hsign
      · rw [List.nil_append, h.toTrimmed.trimBlanks_eq hbefore hafter]
        exact splitSign.eq_3 body (fun rest => (h.unsigned rest).1) fun rest =>
          (h.unsigned rest).2
      · obtain rfl := List.mem_singleton.mp hsign
        rw [List.singleton_append, (hsigned (by decide)).trimBlanks_eq hbefore hafter]
        rfl

/-- What starts and ends with a digit is bare. -/
theorem bare_of_digits {front rest : List Char} {e : Char} {d' : Nat} (hcons : body = c :: rest)
    (hd : digitValue? letters c = some d) (hconcat : body = front ++ [e])
    (hd' : digitValue? letters e = some d') : Bare body where
  first := ⟨c, rest, hcons, isBlank_of_digit hd⟩
  last := ⟨front, e, hconcat, isBlank_of_digit hd'⟩
  unsigned := by
    obtain ⟨hplus, hminus, -⟩ := ne_of_digit hd
    intro tail
    rw [hcons]
    exact ⟨fun h => hplus (List.cons.inj h).1, fun h => hminus (List.cons.inj h).1⟩

/-- A run is bare. -/
theorem DigitRun.bare (h : DigitRun letters run digits) : Bare run := by
  obtain ⟨c, rest, d, hcons, hd⟩ := h.exists_first
  obtain ⟨front, e, d', hconcat, hd'⟩ := h.exists_last
  exact bare_of_digits hcons hd hconcat hd'

/-! ## Base 10 -/

/-- The text writes the number `n` in base 10. -/
def WritesDecimal (text : List Char) (n : Int) : Prop :=
  ∃ negative run digits, Framed text negative run ∧ DigitRun false run digits ∧
    digits.length ≤ maxDecimalDigits ∧ n = signed negative (numberOf 10 digits)

/-- A number is read from the texts that write it in base 10. -/
theorem decimal?_eq_some_iff : decimal? text = some n ↔ WritesDecimal text n := by
  unfold decimal?
  constructor
  · -- What is read tells how the text was put together.
    generalize hsplit : splitSign (trimBlanks text) = parts
    obtain ⟨negative, run⟩ := parts
    intro h
    obtain ⟨digits, hdigits, h⟩ := Option.bind_eq_some_iff.mp h
    have hrun := digitRun?_eq_some_iff.mp hdigits
    split at h
    · next hlength =>
      cases h
      exact ⟨negative, run, digits, hrun.bare.splitSign_trimBlanks_iff.mp hsplit, hrun, hlength,
        rfl⟩
    · cases h
  · -- A text that was put together is taken apart again.
    rintro ⟨negative, run, digits, hframed, hrun, hlength, rfl⟩
    rw [hrun.bare.splitSign_trimBlanks_iff.mpr hframed]
    simp only [digitRun?_eq_some_iff.mpr hrun]
    exact if_pos hlength

/-! ## Base 16 -/

/-- The marks of base 16 that may stand in front of the digits. -/
inductive HexMark : List Char → Prop where
  | none : HexMark []
  | plain {z x : Char} (hz : isZero z = true) (hx : x = 'x' ∨ x = 'X') : HexMark [z, x]
  | spaced {z x : Char} (hz : isZero z = true) (hx : x = 'x' ∨ x = 'X') : HexMark [z, x, '_']

/-- The text writes the number `n` in base 16. -/
def WritesHexadecimal (text : List Char) (n : Int) : Prop :=
  ∃ negative mark run digits, Framed text negative (mark ++ run) ∧ HexMark mark ∧
    DigitRun true run digits ∧ n = signed negative (numberOf 16 digits)

theorem digitValue?_of_isZero {z : Char} (h : isZero z = true) : digitValue? true z = some 0 := by
  have hdigit : decimalDigit? z = some 0 := eq_of_beq h
  simp only [digitValue?, hdigit]

/-- The letter of the mark is no digit, so a run does not begin with a mark. -/
theorem DigitRun.ne_mark {z x : Char} {rest : List Char} (h : DigitRun true run digits)
    (hx : x = 'x' ∨ x = 'X') : run ≠ z :: x :: rest := by
  have hletter : digitValue? true x = none := by
    rcases hx with rfl | rfl
    · decide +kernel
    · decide +kernel
  rintro rfl
  cases h with
  | next _ hrest =>
    obtain ⟨_, _, _, hcons, hd⟩ := hrest.exists_first
    rw [← (List.cons.inj hcons).1, hletter] at hd
    cases hd
  | spaced => exact absurd hx (by decide)

theorem isMark_iff {z x : Char} : (isZero z && (x == 'x' || x == 'X')) = true ↔
    isZero z = true ∧ (x = 'x' ∨ x = 'X') := by
  simp only [Bool.and_eq_true, Bool.or_eq_true, beq_iff_eq]

/-- What is dropped in front of the digits is a mark. -/
theorem exists_hexMark (body : List Char) :
    ∃ mark, HexMark mark ∧ body = mark ++ dropHexMark body := by
  unfold dropHexMark
  -- There are two characters of a mark, and an underscore behind them, or there is no mark.
  split
  · split
    · next h =>
      obtain ⟨hz, hx⟩ := isMark_iff.mp h
      split
      · exact ⟨_, .spaced hz hx, rfl⟩
      · exact ⟨_, .plain hz hx, rfl⟩
    · exact ⟨[], .none, rfl⟩
  · exact ⟨[], .none, rfl⟩

/-- A mark in front of digits is dropped, and no digit with it. -/
theorem HexMark.dropHexMark_append {mark : List Char} (hmark : HexMark mark)
    (hrun : DigitRun true run digits) : dropHexMark (mark ++ run) = run := by
  cases hmark with
  -- Without a mark nothing is dropped, unless the run itself began with one.
  | none =>
    rw [List.nil_append]
    unfold dropHexMark
    split
    · refine if_neg ?_
      intro h
      exact hrun.ne_mark (isMark_iff.mp h).2 rfl
    · rfl
  | plain hz hx =>
    obtain ⟨first, rest, _, rfl, hfirst⟩ := hrun.exists_first
    obtain ⟨-, -, hscore⟩ := ne_of_digit hfirst
    simp only [List.cons_append, List.nil_append, dropHexMark, if_pos (isMark_iff.mpr ⟨hz, hx⟩)]
    -- A digit after the letter is no underscore, so it stays.
    split
    · next h => exact absurd (List.cons.inj h).1 hscore
    · rfl
  | spaced hz hx =>
    simp only [List.cons_append, List.nil_append, dropHexMark, if_pos (isMark_iff.mpr ⟨hz, hx⟩)]

/-- Digits are bare, with a mark in front of them or without. -/
theorem HexMark.bare {mark : List Char} (hmark : HexMark mark) (hrun : DigitRun true run digits) :
    Bare (mark ++ run) := by
  obtain ⟨front, e, d', hconcat, hd'⟩ := hrun.exists_last
  cases hmark with
  | none => exact hrun.bare
  | plain hz =>
    exact bare_of_digits rfl (digitValue?_of_isZero hz)
      (by rw [hconcat, ← List.append_assoc]) hd'
  | spaced hz =>
    exact bare_of_digits rfl (digitValue?_of_isZero hz)
      (by rw [hconcat, ← List.append_assoc]) hd'

/-- A number is read from the texts that write it in base 16. -/
theorem hexadecimal?_eq_some_iff : hexadecimal? text = some n ↔ WritesHexadecimal text n := by
  unfold hexadecimal?
  constructor
  · generalize hsplit : splitSign (trimBlanks text) = parts
    obtain ⟨negative, body⟩ := parts
    intro h
    obtain ⟨digits, hdigits, h⟩ := Option.bind_eq_some_iff.mp h
    cases h
    have hrun := digitRun?_eq_some_iff.mp hdigits
    obtain ⟨mark, hmark, hbody⟩ := exists_hexMark body
    have hframed := (hmark.bare hrun).splitSign_trimBlanks_iff.mp (hbody ▸ hsplit)
    exact ⟨negative, mark, _, digits, hframed, hmark, hrun, rfl⟩
  · rintro ⟨negative, mark, run, digits, hframed, hmark, hrun, rfl⟩
    rw [(hmark.bare hrun).splitSign_trimBlanks_iff.mpr hframed]
    simp only [hmark.dropHexMark_append hrun, digitRun?_eq_some_iff.mpr hrun]
    rfl

/-! ## Sizes -/

theorem hexLetter?_lt (h : hexLetter? c = some d) : d < 16 := by
  have hsmall : c ≤ 'f' → c.toNat ≤ 102 := fun hle => hle
  have hcapital : c ≤ 'F' → c.toNat ≤ 70 := fun hle => hle
  unfold hexLetter? at h
  split at h
  · next hrange =>
    have hle := hsmall hrange.2
    have hvalue := Option.some.inj h
    omega
  · split at h
    · next hrange =>
      have hle := hcapital hrange.2
      have hvalue := Option.some.inj h
      omega
    · cases h

/-- A digit in any base is less than sixteen. -/
theorem digitValue?_lt (h : digitValue? letters c = some d) : d < 16 := by
  unfold digitValue? at h
  split at h
  · next hdigit =>
    have hlt := decimalDigit?_lt hdigit
    have hvalue := Option.some.inj h
    omega
  · split at h
    · exact hexLetter?_lt h
    · cases h

/-- A run has no more digits than characters, and each of them is below sixteen. -/
theorem DigitRun.bounds (h : DigitRun letters run digits) :
    digits.length ≤ run.length ∧ ∀ d ∈ digits, d < 16 := by
  induction h with
  | last hd => exact ⟨Nat.le_refl 1, List.forall_mem_singleton.mpr (digitValue?_lt hd)⟩
  | next hd _ ih =>
    exact ⟨Nat.succ_le_succ ih.1, List.forall_mem_cons.mpr ⟨digitValue?_lt hd, ih.2⟩⟩
  | spaced hd _ ih =>
    refine ⟨?_, List.forall_mem_cons.mpr ⟨digitValue?_lt hd, ih.2⟩⟩
    exact Nat.le_trans (Nat.succ_le_succ ih.1) (Nat.le_succ _)

/-- Digits behind a number that is already there denote less than the next larger number
does with as many zeros behind it. -/
theorem foldl_digits_lt {base : Nat} (h : ∀ d ∈ digits, d < base) (front : Nat) :
    digits.foldl (fun n d => base * n + d) front < (front + 1) * Nat.pow base digits.length := by
  -- The front grows with each digit, so by induction for all fronts.
  induction digits generalizing front with
  | nil =>
    show front < (front + 1) * 1
    omega
  | cons d rest ih =>
    obtain ⟨hd, hrest⟩ := List.forall_mem_cons.mp h
    have hfront : base * front + d + 1 ≤ (front + 1) * base := by
      rw [Nat.add_mul, Nat.one_mul, Nat.mul_comm front base]
      omega
    calc rest.foldl (fun n d => base * n + d) (base * front + d)
        < (base * front + d + 1) * Nat.pow base rest.length := ih hrest _
      _ ≤ (front + 1) * base * Nat.pow base rest.length := Nat.mul_le_mul_right _ hfront
      _ = (front + 1) * Nat.pow base (rest.length + 1) := by
        rw [Nat.mul_assoc, Nat.mul_comm base]
        rfl

/-- Digits denote less than what their number allows. -/
theorem numberOf_lt {base : Nat} (h : ∀ d ∈ digits, d < base) :
    numberOf base digits < Nat.pow base digits.length := by
  have hlt := foldl_digits_lt h 0
  rw [Nat.zero_add, Nat.one_mul] at hlt
  exact hlt

/-- What is written in base 16 with at most six characters fits into three bytes. -/
theorem WritesHexadecimal.le (h : WritesHexadecimal text n) (hlength : text.length ≤ 6) :
    n ≤ 0xFFFFFF := by
  obtain ⟨negative, mark, run, digits, ⟨before, sign, after, rfl, -, -, -⟩, -, hrun, rfl⟩ := h
  obtain ⟨hcount, hdigits⟩ := hrun.bounds
  have hsix : digits.length ≤ 6 := by
    simp only [List.length_append] at hlength
    omega
  have hlt := numberOf_lt hdigits
  have hmost : Nat.pow 16 digits.length ≤ 0x1000000 := Nat.pow_le_pow_right (by decide) hsix
  -- A sign does not make a number larger.
  have hsigned : signed negative (numberOf 16 digits) ≤ numberOf 16 digits := by
    unfold signed
    split <;> omega
  omega

end Chip8.Text
