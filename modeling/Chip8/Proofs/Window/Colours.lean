import Chip8.Proofs.Byte
import Chip8.Proofs.Text.Fields
import Chip8.Proofs.Text.Numeral
import Chip8.Window.Screen

/-!
# Chip8.Proofs.Window.Colours — which texts are palettes

A palette is read in stages: fields, numbers, bytes. `Names` are the texts that name
colours by their numbers, put together from their parts, and `Colour.IsOf` says what the
bytes of a colour have to do with its number:

* `Palette.parse_eq_ok_iff` — a palette is read exactly if its text names one or two
  numbers that are not negative, and its colours are of these numbers.
* `Palette.Shows` — the texts that a palette should have, six digits for each colour. They
  are all read (`Palette.Shows.parse_eq`), but they are not the only texts that are.
* `ParseError.Reported` — the refusals that speak of the palette. There is one other:
  a negative number has no bytes.

A window is opened with the palette that is read, or the refusal is passed on
(`opened_eq`).
-/

namespace Chip8.Window

variable {text field : Text} {codes : List Int} {code : Int}

/-! ## Colours and their numbers -/

/-- The bytes of a colour, red first, make up its number. -/
def Colour.IsOf (c : Colour) (code : Int) : Prop :=
  code = 0x10000 * c.red.toNat + 0x100 * c.green.toNat + c.blue.toNat

namespace Palette

variable {p : Palette}

/-- A number that has three bytes is turned into the colour of these bytes. -/
theorem colour_eq_ok_iff {c : Colour} : colour code = .ok c ↔ c.IsOf code := by
  obtain ⟨red, green, blue⟩ := c
  have hred := red.toNat_lt
  have hgreen := green.toNat_lt
  have hblue := blue.toNat_lt
  unfold colour Colour.IsOf
  constructor
  · intro h
    split at h
    · next hrange =>
      cases h
      simp only [Byte.toNat_ofInt]
      omega
    · cases h
  · intro h
    simp only at h
    have hrange : 0 ≤ code ∧ code ≤ 0xFFFFFF := by omega
    -- A byte is found in a number from which all higher bytes are cut off.
    have hbyte (n : Int) (byte : UInt8) (hn : n % 256 = byte.toNat) : UInt8.ofInt n = byte := by
      apply UInt8.toNat_inj.mp
      have hcut := Byte.toNat_ofInt n
      omega
    rw [if_pos hrange, hbyte (code / 0x10000) red (by omega), hbyte (code / 0x100) green (by omega),
      hbyte code blue (by omega)]

/-- A number has a colour exactly if it fits into three bytes and is not negative. -/
theorem exists_colour_iff : (∃ c, colour code = .ok c) ↔ 0 ≤ code ∧ code ≤ 0xFFFFFF := by
  unfold colour
  constructor
  · rintro ⟨c, h⟩
    split at h
    · assumption
    · cases h
  · intro h
    exact ⟨_, if_pos h⟩

/-! ## Names of colours -/

/-- The field has six characters, and they write the number in base 16. -/
def Denotes (field : Text) (code : Int) : Prop :=
  field.length = 6 ∧ Text.Spells Text.WritesHexadecimal field code

/-- The text names colours by these numbers. -/
def Names (text : Text) (codes : List Int) : Prop :=
  ∃ fields, Text.Fields text fields ∧ List.Forall₂ Denotes fields codes

/-- Whether a refusal tells what is wrong with the palette. -/
def ParseError.Reported : ParseError → Prop
  | .tooMany | .wrongLength | .notHexadecimal => True
  | .outOfRange _ => False

/-- A field is read exactly if it has six characters that write a number in base 16. -/
theorem fieldCode_eq_ok_iff : fieldCode field = .ok code ↔ Denotes field code := by
  have hiff : (Text.chars? field).bind Text.hexadecimal? = some code ↔
      Text.Spells Text.WritesHexadecimal field code :=
    Text.bind_chars?_eq_some_iff fun _ _ => Text.hexadecimal?_eq_some_iff
  rw [Denotes, ← hiff]
  unfold fieldCode
  constructor
  · intro h
    -- The length is looked at before the number.
    split at h
    · next hlength =>
      split at h
      · next hread => exact ⟨hlength, (Except.ok.inj h) ▸ hread⟩
      · cases h
    · cases h
  · rintro ⟨hlength, hread⟩
    rw [if_pos hlength, hread]

/-- A field that is not read is refused with a word of the palette. -/
theorem reported_of_fieldCode {e : ParseError} (h : fieldCode field = .error e) : e.Reported := by
  unfold fieldCode at h
  split at h
  · split at h
    · cases h
    · cases h
      trivial
  · cases h
    trivial

/-- A field of six characters writes no number that is too large for three bytes. -/
theorem Names.le (h : Names text codes) : ∀ code ∈ codes, code ≤ 0xFFFFFF := by
  obtain ⟨fields, -, hcodes⟩ := h
  -- By induction on the fields: each has six characters, and so many write no larger number.
  induction hcodes with
  | nil => exact List.forall_mem_nil _
  | cons hdenotes _ ih =>
    obtain ⟨hlength, cs, rfl, hwrites⟩ := hdenotes
    rw [List.length_map] at hlength
    exact List.forall_mem_cons.mpr ⟨hwrites.le (Nat.le_of_eq hlength), ih⟩

/-! ## Reading -/

/-- What is made of the numbers that a text names. -/
theorem parse_of_names (h : Names text codes) (hlength : codes.length ≤ 2) :
    parse text = ofCodes codes := by
  obtain ⟨fields, hfields, hcodes⟩ := h
  have htwo : ¬ 2 < fields.length := by
    rw [hcodes.length_eq]
    omega
  have hread : fields.mapM fieldCode = .ok codes := by
    simp only [Text.mapM_eq_ok_iff, fieldCode_eq_ok_iff]
    exact hcodes
  simp only [parse, Text.splitOn_eq_iff.mpr hfields, if_neg htwo]
  show fields.mapM fieldCode >>= ofCodes = ofCodes codes
  rw [hread]
  rfl

/-- The outcome for all other texts. -/
theorem parse_of_not_names (h : ¬ ∃ codes, Names text codes ∧ codes.length ≤ 2) :
    ∃ e, parse text = .error e ∧ e.Reported := by
  unfold parse
  simp only
  split
  · exact ⟨.tooMany, rfl, trivial⟩
  · next htwo =>
    show ∃ e, (text.splitOn (.char ',')).mapM fieldCode >>= ofCodes = .error e ∧ e.Reported
    -- All fields may have been read, and then there are too many or too few.
    cases hread : (text.splitOn (.char ',')).mapM fieldCode with
    | ok codes =>
      simp only [Text.mapM_eq_ok_iff, fieldCode_eq_ok_iff] at hread
      refine absurd ⟨codes, ⟨_, Text.splitOn_eq_iff.mp rfl, hread⟩, ?_⟩ h
      rw [← hread.length_eq]
      omega
    | error e =>
      obtain ⟨field, -, hfield⟩ := Text.exists_of_mapM_eq_error hread
      exact ⟨e, rfl, reported_of_fieldCode hfield⟩

/-- The colours of a palette that is made of numbers, and of the defaults where there are
too few. -/
theorem ofCodes_eq_ok_iff : ofCodes codes = .ok p ↔
    p.background.IsOf (codes.getD 0 defaultBackground) ∧
      p.foreground.IsOf (codes.getD 1 defaultForeground) := by
  rw [← colour_eq_ok_iff, ← colour_eq_ok_iff]
  constructor
  · intro h
    obtain ⟨background, hbackground, h⟩ := Text.bind_eq_ok_iff.mp h
    obtain ⟨foreground, hforeground, h⟩ := Text.bind_eq_ok_iff.mp h
    cases h
    exact ⟨hbackground, hforeground⟩
  · rintro ⟨hbackground, hforeground⟩
    rw [ofCodes, hbackground, hforeground]
    rfl

/-- The given numbers and the defaults all have colours if the given ones have. -/
theorem exists_ofCodes (h : ∀ code ∈ codes, 0 ≤ code ∧ code ≤ 0xFFFFFF) :
    ∃ p, ofCodes codes = .ok p := by
  have hcolour (place : Nat) (other : Int) (hother : 0 ≤ other ∧ other ≤ 0xFFFFFF) :
      ∃ c, colour (codes.getD place other) = .ok c := by
    apply exists_colour_iff.mpr
    rw [List.getD_eq_getElem?_getD]
    cases hcode : codes[place]? with
    | none => exact hother
    | some code => exact h code (List.mem_of_getElem? hcode)
  obtain ⟨background, hbackground⟩ := hcolour 0 defaultBackground (by decide)
  obtain ⟨foreground, hforeground⟩ := hcolour 1 defaultForeground (by decide)
  exact ⟨⟨background, foreground⟩, ofCodes_eq_ok_iff.mpr
    ⟨colour_eq_ok_iff.mp hbackground, colour_eq_ok_iff.mp hforeground⟩⟩

/-- A negative number in either place stands in the way of the palette. -/
theorem nonneg_of_ofCodes (h : ofCodes codes = .ok p) (hlength : codes.length ≤ 2) :
    ∀ code ∈ codes, 0 ≤ code := by
  have hnonneg {c : Colour} {code : Int} (hof : c.IsOf code) : 0 ≤ code := by
    unfold Colour.IsOf at hof
    omega
  obtain ⟨hbackground, hforeground⟩ := ofCodes_eq_ok_iff.mp h
  intro code hcode
  obtain ⟨place, hplace, rfl⟩ := List.mem_iff_getElem.mp hcode
  -- With two numbers at most, each is the background's or the foreground's.
  have hgiven (other : Int) : codes.getD place other = codes[place] := by
    rw [List.getD_eq_getElem?_getD, List.getElem?_eq_getElem hplace, Option.getD_some]
  obtain rfl | rfl : place = 0 ∨ place = 1 := by omega
  · exact hnonneg (hgiven _ ▸ hbackground)
  · exact hnonneg (hgiven _ ▸ hforeground)

/-- Numbers are only refused for having no bytes. -/
-- Only the colours can be refused, and they have no other refusal.
theorem ofCodes_eq_error {e : ParseError} (h : ofCodes codes = .error e) :
    ∃ code, e = .outOfRange code := by
  have hcolour {code : Int} (hcode : colour code = .error e) : ∃ code, e = .outOfRange code := by
    unfold colour at hcode
    split at hcode
    · cases hcode
    · cases hcode
      exact ⟨code, rfl⟩
  rcases Text.bind_eq_error_iff.mp h with hbackground | ⟨_, -, h⟩
  · exact hcolour hbackground
  · rcases Text.bind_eq_error_iff.mp h with hforeground | ⟨_, -, h⟩
    · exact hcolour hforeground
    · cases h

/-- A palette is read exactly if its text names one or two colours and none of their
numbers is negative. Its colours are of these numbers. -/
theorem parse_eq_ok_iff : parse text = .ok p ↔
    ∃ codes, Names text codes ∧ codes.length ≤ 2 ∧ (∀ code ∈ codes, 0 ≤ code) ∧
      p.background.IsOf (codes.getD 0 defaultBackground) ∧
      p.foreground.IsOf (codes.getD 1 defaultForeground) := by
  constructor
  · intro h
    -- A text that names no colours is refused before any number is looked at.
    by_cases hnames : ∃ codes, Names text codes ∧ codes.length ≤ 2
    · obtain ⟨codes, hcodes, hlength⟩ := hnames
      rw [parse_of_names hcodes hlength] at h
      exact ⟨codes, hcodes, hlength, nonneg_of_ofCodes h hlength, ofCodes_eq_ok_iff.mp h⟩
    · obtain ⟨_, herror, -⟩ := parse_of_not_names hnames
      rw [herror] at h
      cases h
  · rintro ⟨codes, hcodes, hlength, -, hcolours⟩
    rw [parse_of_names hcodes hlength]
    exact ofCodes_eq_ok_iff.mpr hcolours

/-- A palette is read exactly if its text names one or two colours, and no number is negative.
-/
theorem exists_parse_iff : (∃ p, parse text = .ok p) ↔
    ∃ codes, Names text codes ∧ codes.length ≤ 2 ∧ ∀ code ∈ codes, 0 ≤ code := by
  constructor
  · rintro ⟨p, hp⟩
    obtain ⟨codes, hcodes, hlength, hnonneg, -⟩ := parse_eq_ok_iff.mp hp
    exact ⟨codes, hcodes, hlength, hnonneg⟩
  · rintro ⟨codes, hcodes, hlength, hnonneg⟩
    rw [parse_of_names hcodes hlength]
    apply exists_ofCodes
    intro code hcode
    exact ⟨hnonneg code hcode, hcodes.le code hcode⟩

/-- A refusal speaks of the palette unless one of the numbers that the text names is
negative. -/
theorem reported_iff {e : ParseError} (h : parse text = .error e) :
    e.Reported ↔ ¬ ∃ codes, Names text codes ∧ codes.length ≤ 2 ∧ ∃ code ∈ codes, code < 0 := by
  constructor
  · rintro hreported ⟨codes, hcodes, hlength, -⟩
    rw [parse_of_names hcodes hlength] at h
    obtain ⟨_, rfl⟩ := ofCodes_eq_error h
    exact hreported
  · intro hnone
    by_cases hnames : ∃ codes, Names text codes ∧ codes.length ≤ 2
    · obtain ⟨codes, hcodes, hlength⟩ := hnames
      have hnonneg : ∀ code ∈ codes, 0 ≤ code := by
        intro code hcode
        rcases Int.lt_or_le code 0 with hnegative | hle
        · exact absurd ⟨codes, hcodes, hlength, code, hcode, hnegative⟩ hnone
        · exact hle
      obtain ⟨p, hp⟩ := exists_parse_iff.mpr ⟨codes, hcodes, hlength, hnonneg⟩
      rw [hp] at h
      cases h
    · obtain ⟨_, herror, hreported⟩ := parse_of_not_names hnames
      rw [herror] at h
      cases h
      exact hreported

/-! ## Digits in pairs -/

/-- The value of an ASCII character as a digit in base 16. -/
def digit? (c : Char) : Option Nat :=
  if '0' ≤ c ∧ c ≤ '9' then some (c.toNat - 48) else Text.hexLetter? c

/-- A digit of ASCII is a character of ASCII. -/
theorem toNat_lt_of_digit? {c : Char} {d : Nat} (h : digit? c = some d) : c.toNat < 128 := by
  have hle {last : Char} (hlast : last.toNat < 128) (hc : c ≤ last) : c.toNat < 128 :=
    Nat.lt_of_le_of_lt hc hlast
  unfold digit? Text.hexLetter? at h
  split at h
  · next hrange => exact hle (by decide) hrange.2
  · split at h
    · next hrange => exact hle (by decide) hrange.2
    · split at h
      · next hrange => exact hle (by decide) hrange.2
      · cases h

/-- The digits of ASCII are digits of a number. -/
theorem digitValue?_of_digit? {c : Char} {d : Nat} (h : digit? c = some d) :
    Text.digitValue? true c = some d := by
  -- There are few characters of ASCII, so each of them can be looked at.
  have hascii : ∀ n < 128, Text.digitValue? true (Char.ofNat n) = digit? (Char.ofNat n) := by
    decide +kernel
  rw [← Char.ofNat_toNat c, hascii _ (toNat_lt_of_digit? h), Char.ofNat_toNat, h]

/-- Two digits that write a byte. -/
def IsPair (high low : Char) (byte : UInt8) : Prop :=
  ∃ d e, digit? high = some d ∧ digit? low = some e ∧ byte.toNat = 16 * d + e

/-- Six digits: a pair for each byte of the colour. -/
def Pairs (field : Text) (c : Colour) : Prop :=
  ∃ a b d e f g, field = [a, b, d, e, f, g].map .char ∧
    IsPair a b c.red ∧ IsPair d e c.green ∧ IsPair f g c.blue

/-- Six digits are one of the ways to write the number of their colour. -/
theorem Pairs.denotes {c : Colour} (h : Pairs field c) :
    ∃ code, c.IsOf code ∧ Denotes field code := by
  obtain ⟨_, _, _, _, _, _, rfl, hred, hgreen, hblue⟩ := h
  obtain ⟨d₁, d₂, h₁, h₂, hred⟩ := hred
  obtain ⟨d₃, d₄, h₃, h₄, hgreen⟩ := hgreen
  obtain ⟨d₅, d₆, h₅, h₆, hblue⟩ := hblue
  -- A run of six digits, and no mark in front of it.
  have hrun : Text.DigitRun true _ [d₁, d₂, d₃, d₄, d₅, d₆] :=
    .next (digitValue?_of_digit? h₁) <| .next (digitValue?_of_digit? h₂) <|
    .next (digitValue?_of_digit? h₃) <| .next (digitValue?_of_digit? h₄) <|
    .next (digitValue?_of_digit? h₅) <| .last (digitValue?_of_digit? h₆)
  refine ⟨Text.numberOf 16 [d₁, d₂, d₃, d₄, d₅, d₆], ?_, rfl, _, rfl, false, [], _, _,
    ⟨[], [], [], ?_, ?_⟩, .none, hrun, rfl⟩
  · simp only [Colour.IsOf, Text.numberOf, List.foldl_cons, List.foldl_nil]
    omega
  · rw [List.append_nil]
    rfl
  · exact ⟨List.forall_mem_nil _, List.forall_mem_nil _, List.mem_cons_self⟩

/-- The fields of a text are the colours, in six digits each. -/
def Shows (text : Text) (colours : List Colour) : Prop :=
  ∃ fields, Text.Fields text fields ∧ List.Forall₂ Pairs fields colours

/-- The palette before any colour is given: dark grey and light grey. -/
def initial : Palette := ⟨⟨0x22, 0x22, 0x22⟩, ⟨0xDD, 0xDD, 0xDD⟩⟩

/-- The palette with the given colours in place of the initial ones. -/
def given (colours : List Colour) : Palette :=
  ⟨colours.getD 0 initial.background, colours.getD 1 initial.foreground⟩

/-- Colours in six digits are named by their numbers. -/
theorem Shows.names {colours : List Colour} (h : Shows text colours) :
    ∃ codes, Names text codes ∧ List.Forall₂ Colour.IsOf colours codes := by
  obtain ⟨fields, hfields, hcolours⟩ := h
  have hcodes : ∃ codes, List.Forall₂ Denotes fields codes ∧
      List.Forall₂ Colour.IsOf colours codes := by
    clear hfields
    induction hcolours with
    | nil => exact ⟨[], .nil, .nil⟩
    | cons hpairs _ ih =>
      obtain ⟨code, hof, hdenotes⟩ := hpairs.denotes
      obtain ⟨codes, hcodes, hofs⟩ := ih
      exact ⟨code :: codes, .cons hdenotes hcodes, .cons hof hofs⟩
  obtain ⟨codes, hcodes, hofs⟩ := hcodes
  exact ⟨codes, ⟨fields, hfields, hcodes⟩, hofs⟩

/-- Colours that are not given are of the numbers that are not given. -/
theorem isOf_getD {colours : List Colour} {c : Colour} (h : List.Forall₂ Colour.IsOf colours codes)
    (hother : c.IsOf code) (place : Nat) : (colours.getD place c).IsOf (codes.getD place code) := by
  induction h generalizing place with
  | nil => exact hother
  | cons hfirst _ ih =>
    cases place with
    | zero => exact hfirst
    | succ place => exact ih place

/-- One or two colours in six digits each are the colours of the palette. -/
theorem Shows.parse_eq {colours : List Colour} (h : Shows text colours)
    (hlength : colours.length ≤ 2) : parse text = .ok (given colours) := by
  obtain ⟨codes, hcodes, hofs⟩ := h.names
  rw [parse_of_names hcodes (hofs.length_eq ▸ hlength)]
  exact ofCodes_eq_ok_iff.mpr
    ⟨isOf_getD hofs rfl 0, isOf_getD hofs rfl 1⟩

/-- Two digits are a pair for some byte. -/
theorem exists_isPair {high low : Char} {d e : Nat} (hhigh : digit? high = some d)
    (hlow : digit? low = some e) : ∃ byte, IsPair high low byte := by
  have hd := Text.digitValue?_lt (digitValue?_of_digit? hhigh)
  have he := Text.digitValue?_lt (digitValue?_of_digit? hlow)
  refine ⟨UInt8.ofNat (16 * d + e), d, e, hhigh, hlow, ?_⟩
  rw [UInt8.toNat_ofNat']
  omega

/-- A comma or a digit. -/
def Plain (p : CodePoint) : Prop := p = .char ',' ∨ ∃ c d, p = .char c ∧ digit? c = some d

/-- Six digits are pairs. -/
theorem exists_pairs (hlength : field.length = 6)
    (h : ∀ p ∈ field, ∃ c d, p = .char c ∧ digit? c = some d) : ∃ c, Pairs field c := by
  match field, hlength with
  | [p₁, p₂, p₃, p₄, p₅, p₆], _ =>
    simp only [List.forall_mem_cons] at h
    obtain ⟨⟨a₁, d₁, rfl, h₁⟩, ⟨a₂, d₂, rfl, h₂⟩, ⟨a₃, d₃, rfl, h₃⟩, ⟨a₄, d₄, rfl, h₄⟩,
      ⟨a₅, d₅, rfl, h₅⟩, ⟨a₆, d₆, rfl, h₆⟩, -⟩ := h
    obtain ⟨red, hred⟩ := exists_isPair h₁ h₂
    obtain ⟨green, hgreen⟩ := exists_isPair h₃ h₄
    obtain ⟨blue, hblue⟩ := exists_isPair h₅ h₆
    exact ⟨⟨red, green, blue⟩, _, _, _, _, _, _, rfl, hred, hgreen, hblue⟩

/-- In a text of digits and commas, colours are named with six digits only. -/
theorem Names.shows (h : Names text codes) (hplain : ∀ p ∈ text, Plain p) :
    ∃ colours, Shows text colours ∧ colours.length = codes.length := by
  obtain ⟨fields, hfields, hcodes⟩ := h
  -- The text has no other characters, and no field has a comma, so fields are digits.
  have hpairs : ∀ field ∈ fields, field.length = 6 → ∃ c, Pairs field c := by
    intro field hfield hlength
    refine exists_pairs hlength ?_
    intro p hp
    rcases hplain p (hfields.subset field hfield hp) with rfl | hdigit
    · exact absurd hp (hfields.plain field hfield)
    · exact hdigit
  have hcolours : ∃ colours, List.Forall₂ Pairs fields colours := by
    -- By induction on the fields and their numbers together.
    clear hfields
    induction hcodes with
    | nil => exact ⟨[], .nil⟩
    | cons hdenotes _ ih =>
      obtain ⟨hfirst, hrest⟩ := List.forall_mem_cons.mp hpairs
      obtain ⟨c, hc⟩ := hfirst hdenotes.1
      obtain ⟨colours, hcolours⟩ := ih hrest
      exact ⟨c :: colours, .cons hc hcolours⟩
  obtain ⟨colours, hcolours⟩ := hcolours
  exact ⟨colours, ⟨fields, hfields, hcolours⟩, hcolours.length_eq ▸ hcodes.length_eq⟩

end Palette

/-! ## Opening a window -/

/-- The window that is opened with a palette and the defaults for all else. -/
def opened (text : Text) : Except Screen.Error Screen :=
  (Screen.start .nothing (.value text) (.value 0)).2

/-- The palette decides whether a window is opened. -/
theorem opened_eq (text : Text) : opened text =
    match Palette.parse text with
    | .ok p => .ok (Screen.blank Screen.defaultScale 0 p).refresh.1
    | .error cause => .error (.palette cause) := by
  have hwidth : Screen.widthOf .nothing = .ok Screen.defaultScale := rfl
  have hpalette : Screen.paletteOf (.value text) = (Palette.parse text).mapError .palette := rfl
  rw [opened, Screen.start, hwidth, hpalette]
  cases Palette.parse text with
  | ok p => rfl
  | error cause => rfl

/-- The window has the palette that was read. -/
theorem exists_opened_iff {p : Palette} :
    (∃ s, opened text = .ok s ∧ s.palette = p) ↔ Palette.parse text = .ok p := by
  rw [opened_eq]
  cases Palette.parse text with
  | ok p' =>
    constructor
    · rintro ⟨_, hopened, rfl⟩
      cases hopened
      rfl
    · intro h
      cases h
      exact ⟨_, rfl, rfl⟩
  | error cause =>
    constructor
    · rintro ⟨_, hopened, -⟩
      cases hopened
    · intro h
      cases h

/-- A window is not opened only because of its palette. -/
theorem opened_eq_error {e : Screen.Error} (h : opened text = .error e) :
    ∃ cause, e = .palette cause ∧ Palette.parse text = .error cause := by
  rw [opened_eq] at h
  cases hparse : Palette.parse text with
  | ok p =>
    rw [hparse] at h
    cases h
  | error cause =>
    rw [hparse] at h
    cases h
    exact ⟨cause, rfl, rfl⟩

/-- A window is opened exactly if the text names one or two colours, and no number is negative.
-/
theorem isOk_opened_iff : (∃ s, opened text = .ok s) ↔ ∃ codes, Palette.Names text codes ∧
    codes.length ≤ 2 ∧ ∀ code ∈ codes, 0 ≤ code := by
  rw [← Palette.exists_parse_iff]
  constructor
  · rintro ⟨s, hs⟩
    exact ⟨s.palette, exists_opened_iff.mp ⟨s, hs, rfl⟩⟩
  · rintro ⟨p, hp⟩
    obtain ⟨s, hs, -⟩ := exists_opened_iff.mpr hp
    exact ⟨s, hs⟩

/-- Opening a window with a palette, for every text:

* one or two colours in six digits each become the background and the foreground, and a
  foreground that is not given is light grey;
* a text of digits and commas that is anything else opens no window, and the refusal speaks
  of the palette;
* a text with other characters opens a window as well if its one or two fields have six
  characters each and write numbers that are not negative, and the colours are then of
  these numbers;
* where no window is opened, the refusal speaks of the palette, unless a number that is
  written in six characters is negative. -/
theorem opened_unless_negative (text : Text) :
    (∀ colours, Palette.Shows text colours → colours.length ≤ 2 →
        ∃ s, opened text = .ok s ∧ s.palette = Palette.given colours) ∧
      ((∀ p ∈ text, Palette.Plain p) →
        ((∃ s, opened text = .ok s) ↔
          ∃ colours, Palette.Shows text colours ∧ colours.length ≤ 2) ∧
        ∀ e, opened text = .error e → ∃ cause, e = .palette cause ∧ cause.Reported) ∧
      ((∃ s, opened text = .ok s) ↔ ∃ codes, Palette.Names text codes ∧ codes.length ≤ 2 ∧
        ∀ code ∈ codes, 0 ≤ code) ∧
      (∀ s, opened text = .ok s → ∃ codes, Palette.Names text codes ∧ codes.length ≤ 2 ∧
        s.palette.background.IsOf (codes.getD 0 0x222222) ∧
        s.palette.foreground.IsOf (codes.getD 1 0xDDDDDD)) ∧
      ∀ e, opened text = .error e → ((∃ cause, e = .palette cause ∧ cause.Reported) ↔
        ¬ ∃ codes, Palette.Names text codes ∧ codes.length ≤ 2 ∧ ∃ code ∈ codes, code < 0) := by
  have hshown (colours : List Colour) (h : Palette.Shows text colours)
      (hlength : colours.length ≤ 2) : ∃ s, opened text = .ok s ∧ s.palette = .given colours :=
    exists_opened_iff.mpr (h.parse_eq hlength)
  have hreported (e : Screen.Error) (he : opened text = .error e) :
      (∃ cause, e = .palette cause ∧ cause.Reported) ↔ ¬ ∃ codes, Palette.Names text codes ∧
        codes.length ≤ 2 ∧ ∃ code ∈ codes, code < 0 := by
    obtain ⟨cause, rfl, hcause⟩ := opened_eq_error he
    rw [← Palette.reported_iff hcause]
    constructor
    · rintro ⟨_, hsame, hreported⟩
      cases hsame
      exact hreported
    · intro hreported
      exact ⟨cause, rfl, hreported⟩
  refine ⟨hshown, ?_, isOk_opened_iff, ?_, hreported⟩
  · intro hplain
    have hnamed (codes : List Int) (hcodes : Palette.Names text codes)
        (hlength : codes.length ≤ 2) :
        ∃ colours, Palette.Shows text colours ∧ colours.length ≤ 2 := by
      obtain ⟨colours, hcolours, hsame⟩ := hcodes.shows hplain
      exact ⟨colours, hcolours, hsame ▸ hlength⟩
    -- In a text of digits and commas no number is negative, for there is no sign in it.
    refine ⟨⟨?_, ?_⟩, ?_⟩
    · intro hopened
      obtain ⟨codes, hcodes, hlength, -⟩ := isOk_opened_iff.mp hopened
      exact hnamed codes hcodes hlength
    · rintro ⟨colours, hcolours, hlength⟩
      obtain ⟨s, hs, -⟩ := hshown colours hcolours hlength
      exact ⟨s, hs⟩
    · -- A refusal that did not speak of the palette would come from a negative number.
      intro e he
      apply (hreported e he).mpr
      rintro ⟨codes, hcodes, hlength, -⟩
      obtain ⟨colours, hcolours, hlength⟩ := hnamed codes hcodes hlength
      obtain ⟨s, hs, -⟩ := hshown colours hcolours hlength
      rw [hs] at he
      cases he
  · intro s hs
    obtain ⟨codes, hcodes, hlength, -, hcolours⟩ :=
      Palette.parse_eq_ok_iff.mp (exists_opened_iff.mp ⟨s, hs, rfl⟩)
    exact ⟨codes, hcodes, hlength, hcolours⟩

/-- A number with a mark of its base is no colour in six digits but opens a window, and a
negative number is refused with no word of the palette. -/
theorem marked_colour_opens_and_negative_colour_is_unreported :
    (¬ ∃ colours, Palette.Shows ("0x1234" : String) colours) ∧
      (∃ s, opened ("0x1234" : String) = .ok s ∧ s.palette.background = ⟨0x00, 0x12, 0x34⟩) ∧
      opened ("-12345" : String) = .error (.palette (.outOfRange (-0x12345))) ∧
      ¬ (Palette.ParseError.outOfRange (-0x12345)).Reported := by
  have hmarked : Palette.parse ("0x1234" : String) =
      .ok ⟨⟨0x00, 0x12, 0x34⟩, ⟨0xDD, 0xDD, 0xDD⟩⟩ := by rfl
  have hnegative : Palette.parse ("-12345" : String) = .error (.outOfRange (-0x12345)) := by rfl
  refine ⟨?_, ?_, ?_, id⟩
  · rintro ⟨colours, fields, hfields, hcolours⟩
    -- The second character would have to be a digit.
    have hfield : fields = [[.char '0', .char 'x', .char '1', .char '2', .char '3', .char '4']] :=
      (Text.splitOn_eq_iff.mpr hfields).symm
    rw [hfield] at hcolours
    cases hcolours with
    | cons hpairs _ =>
      obtain ⟨_, _, _, _, _, _, hsix, ⟨_, _, -, hmark, -⟩, -⟩ := hpairs
      simp only [List.map_cons, List.map_nil] at hsix
      cases hsix
      cases hmark
  · obtain ⟨s, hs, hpalette⟩ := exists_opened_iff.mpr hmarked
    exact ⟨s, hs, hpalette ▸ rfl⟩
  · rw [opened_eq, hnegative]

end Chip8.Window
