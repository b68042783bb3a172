import Chip8.Text.Basic
import Mathlib.Data.List.Forall2

/-!
# Chip8.Proofs.Text.Fields — texts made of fields

Options that hold several numbers are texts with commas between their fields:

* `Fields` — the fields of a text, by what joining them gives. `splitOn_eq_iff` says that
  splitting finds exactly these.
* `Spells` — a field that is made of characters and writes a number with them.

A reader goes through all fields and stops at the first that it cannot read. What comes of
that is said by `mapM_eq_some_iff`, `mapM_eq_ok_iff` and `exists_of_mapM_eq_error`, and what
comes of two readers in a row by `bind_eq_ok_iff` and `bind_eq_error_iff`.
-/

namespace Chip8.Text

variable {text field : Text} {fields : List Text} {n : Int}

/-! ## Splitting at commas -/

/-- The text is these fields with a comma between each two of them. There is at least one
field, and none has a comma in it. -/
structure Fields (text : Text) (fields : List Text) : Prop where
  nonempty : fields ≠ []
  plain : ∀ field ∈ fields, .char ',' ∉ field
  joined : text = Text.joined [.char ','] fields

/-- No part of a text that was split at commas has a comma in it. -/
theorem comma_not_mem (text : Text) : ∀ field ∈ text.splitOn (.char ','), .char ',' ∉ field := by
  -- By induction on the text: a comma begins a new part, and any other point goes on with one.
  induction text with
  | nil =>
    intro field hfield
    rw [List.mem_singleton.mp hfield]
    exact List.not_mem_nil
  | cons p rest ih =>
    intro field hfield
    unfold List.splitOn at hfield ih
    rw [List.splitOnP_cons_eq_if_modifyHead] at hfield
    split at hfield
    · rcases List.mem_cons.mp hfield with rfl | hfield
      · exact List.not_mem_nil
      · exact ih field hfield
    · next hp =>
      -- The point goes in front of the first part of the rest.
      cases hparts : List.splitOnP (· == CodePoint.char ',') rest with
      | nil =>
        rw [hparts] at hfield
        cases hfield
      | cons first others =>
        rw [hparts] at hfield ih
        rcases List.mem_cons.mp hfield with rfl | hfield
        · intro hcomma
          rcases List.mem_cons.mp hcomma with hcomma | hcomma
          · exact hp (beq_iff_eq.mpr hcomma.symm)
          · exact ih first List.mem_cons_self hcomma
        · exact ih field (List.mem_cons_of_mem first hfield)

/-- Splitting at commas finds the fields. -/
theorem splitOn_eq_iff : text.splitOn (.char ',') = fields ↔ Fields text fields := by
  constructor
  · rintro rfl
    exact ⟨List.splitOn_ne_nil _ _, comma_not_mem text, (List.intercalate_splitOn _).symm⟩
  · rintro ⟨hnonempty, hplain, rfl⟩
    exact List.splitOn_intercalate _ hplain hnonempty

/-- What is in a field is in the text. -/
theorem Fields.subset (h : Fields text fields) : ∀ field ∈ fields, field ⊆ text := by
  obtain ⟨-, -, rfl⟩ := h
  induction fields with
  | nil => exact List.forall_mem_nil _
  -- One field more stands behind a comma.
  | cons first others ih =>
    cases others with
    | nil =>
      rw [Text.joined, List.intercalate_singleton]
      exact List.forall_mem_singleton.mpr (List.Subset.refl first)
    | cons second others =>
      simp only [Text.joined, List.intercalate_cons_cons] at ih ⊢
      refine List.forall_mem_cons.mpr ⟨?_, ?_⟩
      · intro p hp
        exact List.mem_append_left _ (List.mem_append_left _ hp)
      · intro field hfield p hp
        exact List.mem_append_right _ (ih field hfield hp)

/-! ## Numbers in fields -/

/-- A field that is made of characters and writes a number with them. -/
def Spells (Writes : List Char → Int → Prop) (field : Text) (n : Int) : Prop :=
  ∃ cs : List Char, field = cs.map .char ∧ Writes cs n

/-- A text has characters exactly if it is made of them. -/
theorem chars?_eq_some_iff {cs : List Char} : chars? text = some cs ↔ text = cs.map .char := by
  constructor
  · intro h
    -- By induction on the text. A half is no character, so none may be in it.
    induction text generalizing cs with
    | nil =>
      cases h
      rfl
    | cons p rest ih =>
      rw [chars?, List.mapM_cons] at h
      obtain ⟨c, hc, h⟩ := Option.bind_eq_some_iff.mp h
      obtain ⟨tail, htail, h⟩ := Option.bind_eq_some_iff.mp h
      cases h
      rw [ih htail, List.map_cons]
      cases p with
      | char c' =>
        cases hc
        rfl
      | half => cases hc
  · rintro rfl
    exact chars?_map_char cs

/-- A reader that follows a grammar reads the fields that spell a number in it. -/
theorem bind_chars?_eq_some_iff {read : List Char → Option Int}
    {Writes : List Char → Int → Prop} (h : ∀ cs n, read cs = some n ↔ Writes cs n) :
    (chars? field).bind read = some n ↔ Spells Writes field n := by
  rw [Option.bind_eq_some_iff]
  constructor
  · rintro ⟨cs, hcs, hread⟩
    exact ⟨cs, chars?_eq_some_iff.mp hcs, (h cs n).mp hread⟩
  · rintro ⟨cs, hcs, hwrites⟩
    exact ⟨cs, chars?_eq_some_iff.mpr hcs, (h cs n).mpr hwrites⟩

/-! ## Reading all fields -/

section ReadAll

variable {α β ε : Type} {l : List α} {r : List β}

/-- All items are read exactly if each of them is. -/
theorem mapM_eq_some_iff {f : α → Option β} :
    l.mapM f = some r ↔ List.Forall₂ (fun a b => f a = some b) l r := by
  induction l generalizing r with
  | nil =>
    rw [List.forall₂_nil_left_iff]
    exact ⟨fun h => (Option.some.inj h).symm, fun h => congrArg some h.symm⟩
  | cons a rest ih =>
    rw [List.mapM_cons, List.forall₂_cons_left_iff]
    constructor
    · intro h
      obtain ⟨b, hb, h⟩ := Option.bind_eq_some_iff.mp h
      obtain ⟨bs, hbs, h⟩ := Option.bind_eq_some_iff.mp h
      exact ⟨b, bs, hb, ih.mp hbs, (Option.some.inj h).symm⟩
    · rintro ⟨b, bs, hb, hbs, rfl⟩
      rw [hb, Option.bind_eq_bind, Option.bind_some, ih.mpr hbs]
      rfl

/-- A reader that is followed by another gets through if both do. -/
theorem bind_eq_ok_iff {x : Except ε α} {f : α → Except ε β} {b : β} :
    x >>= f = .ok b ↔ ∃ a, x = .ok a ∧ f a = .ok b := by
  cases x with
  | error e => simp [Bind.bind, Except.bind]
  | ok a => simp [Bind.bind, Except.bind]

/-- Otherwise the error is that of the first of the two, or of the second behind it. -/
theorem bind_eq_error_iff {x : Except ε α} {f : α → Except ε β} {e : ε} :
    x >>= f = .error e ↔ x = .error e ∨ ∃ a, x = .ok a ∧ f a = .error e := by
  cases x with
  | error e' => simp [Bind.bind, Except.bind]
  | ok a => simp [Bind.bind, Except.bind]

theorem mapM_eq_ok_iff {f : α → Except ε β} :
    l.mapM f = .ok r ↔ List.Forall₂ (fun a b => f a = .ok b) l r := by
  induction l generalizing r with
  | nil =>
    rw [List.forall₂_nil_left_iff]
    exact ⟨fun h => (Except.ok.inj h).symm, fun h => congrArg Except.ok h.symm⟩
  | cons a rest ih =>
    rw [List.mapM_cons, List.forall₂_cons_left_iff]
    constructor
    · intro h
      obtain ⟨b, hb, h⟩ := bind_eq_ok_iff.mp h
      obtain ⟨bs, hbs, h⟩ := bind_eq_ok_iff.mp h
      exact ⟨b, bs, hb, ih.mp hbs, (Except.ok.inj h).symm⟩
    · rintro ⟨b, bs, hb, hbs, rfl⟩
      rw [hb, ih.mpr hbs]
      rfl

/-- The error of a reader is that of one of the items. -/
theorem exists_of_mapM_eq_error {f : α → Except ε β} {e : ε} (h : l.mapM f = .error e) :
    ∃ a ∈ l, f a = .error e := by
  -- Either the first item is not read, or one of the others.
  induction l with
  | nil => cases h
  | cons a rest ih =>
    rw [List.mapM_cons] at h
    rcases bind_eq_error_iff.mp h with ha | ⟨_, -, h⟩
    · exact ⟨a, List.mem_cons_self, ha⟩
    · rcases bind_eq_error_iff.mp h with hrest | ⟨_, -, h⟩
      · obtain ⟨a', ha', herror⟩ := ih hrest
        exact ⟨a', List.mem_cons_of_mem a ha', herror⟩
      · cases h

end ReadAll

end Chip8.Text
