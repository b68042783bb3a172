import Chip8.KeyMap
import Chip8.Proofs.Text.Fields
import Chip8.Proofs.Text.Numeral

/-!
# Chip8.Proofs.KeyMap.Reading — which texts are key maps

A key map is read in stages: fields, numbers, letters, duplicates. `Lists` are the texts
that list numbers, put together from their parts, and the outcome of reading is said by
the listed numbers alone:

* `parse_eq_ok_iff` — a map is read exactly if there are sixteen numbers that stay
  different when letters are folded, and it holds them in order.
* `key?_eq_some_iff` — a map finds for each of its codes the key in that place.
* `ParseError.Reported` — the refusals that speak of the key map. There is one other:
  a negative number has no letter to fold.
-/

namespace Chip8.KeyMap

variable {text : Text} {codes folded : List Int} {folding : Bool} {map : KeyMap}

/-! ## Lists of numbers -/

/-- The text lists these numbers: its fields write them in decimal. -/
def Lists (text : Text) (codes : List Int) : Prop :=
  ∃ fields, Text.Fields text fields ∧ List.Forall₂ (Text.Spells Text.WritesDecimal) fields codes

/-- The code that a map holds for a number that is listed. -/
def held (folding : Bool) (code : Int) : Int := if folding then smallLetter code else code

/-- The numbers that a map can be made of: there is one for each key, no two are the same
to the map, and letters can be folded where that is asked for. -/
structure Usable (folding : Bool) (codes : List Int) : Prop where
  length : codes.length = 16
  letters : folding = true → ∀ code ∈ codes, 0 ≤ code
  distinct : (codes.map (held folding)).Nodup

/-- Whether a refusal tells what is wrong with the key map. -/
def ParseError.Reported : ParseError → Prop
  | .wrongCount | .notNumbers | .duplicate => True
  | .noLetter _ => False

theorem fields_read_iff {fields : List Text} :
    fields.mapM (fun field => (Text.chars? field).bind Text.decimal?) = some codes ↔
      List.Forall₂ (Text.Spells Text.WritesDecimal) fields codes := by
  have hiff (field : Text) (n : Int) : (Text.chars? field).bind Text.decimal? = some n ↔
      Text.Spells Text.WritesDecimal field n :=
    Text.bind_chars?_eq_some_iff fun _ _ => Text.decimal?_eq_some_iff
  simp only [Text.mapM_eq_some_iff, hiff]

/-! ## Letters -/

/-- A letter is folded if its code is not negative. -/
theorem fold_eq_ok_iff {code small : Int} :
    fold code = .ok small ↔ 0 ≤ code ∧ small = smallLetter code := by
  unfold fold
  split
  · next h => exact ⟨fun heq => ⟨h, (Except.ok.inj heq).symm⟩, fun heq => congrArg _ heq.2.symm⟩
  · next h =>
    constructor
    · intro heq
      split at heq <;> cases heq
    · intro heq
      exact absurd heq.1 h

theorem fold_eq_error {code : Int} {e : FoldError} (h : fold code = .error e) : code < 0 := by
  unfold fold at h
  split at h
  · cases h
  · omega

/-- All letters can be folded exactly if no number is negative. -/
theorem foldAll_eq_ok_iff :
    foldAll codes = .ok folded ↔ (∀ code ∈ codes, 0 ≤ code) ∧ folded = codes.map smallLetter := by
  have hall : codes.mapM fold = .ok folded ↔
      (∀ code ∈ codes, 0 ≤ code) ∧ folded = codes.map smallLetter := by
    -- Item by item, where each is folded on its own.
    simp only [Text.mapM_eq_ok_iff, fold_eq_ok_iff]
    induction codes generalizing folded with
    | nil => simp
    | cons code rest ih =>
      rw [List.forall₂_cons_left_iff]
      simp only [ih, List.forall_mem_cons, List.map_cons]
      constructor
      · rintro ⟨_, _, ⟨hcode, rfl⟩, ⟨hrest, rfl⟩, rfl⟩
        exact ⟨⟨hcode, hrest⟩, rfl⟩
      · rintro ⟨⟨hcode, hrest⟩, rfl⟩
        exact ⟨_, _, ⟨hcode, rfl⟩, ⟨hrest, rfl⟩, rfl⟩
  rw [← hall, foldAll]
  split
  · next h => rw [h]; simp
  · next h => rw [h]; simp

/-- If not all letters can be folded, one of the numbers is negative. -/
theorem exists_of_foldAll_eq_error {e : ParseError} (h : foldAll codes = .error e) :
    (∃ cause, e = .noLetter cause) ∧ ∃ code ∈ codes, code < 0 := by
  unfold foldAll at h
  split at h
  · cases h
  · next cause hcause =>
    cases h
    obtain ⟨code, hmem, hfold⟩ := Text.exists_of_mapM_eq_error hcause
    exact ⟨⟨cause, rfl⟩, code, hmem, fold_eq_error hfold⟩

/-! ## Maps of numbers -/

/-- A map is made of numbers exactly if it holds them in order. -/
theorem ofCodes_eq_ok_iff : ofCodes codes = .ok map ↔ map.codes.toList = codes := by
  unfold ofCodes
  constructor
  · intro h
    split at h
    · split at h
      · cases h
        rfl
      · cases h
    · cases h
  · rintro rfl
    rw [dif_pos Vector.length_toList, dif_pos map.distinct]
    rfl

theorem ofCodes_of_duplicate (hlength : codes.length = 16) (h : ¬ codes.Nodup) :
    ofCodes codes = .error .duplicate := by
  rw [ofCodes, dif_pos hlength, dif_neg h]

/-- Numbers that a map can be made of are held by one. -/
theorem Usable.exists_map (h : Usable folding codes) :
    ∃ map : KeyMap, map.codes.toList = codes.map (held folding) := by
  have hlength : (codes.map (held folding)).length = 16 := by rw [List.length_map, h.length]
  have hmade : ∃ map, ofCodes (codes.map (held folding)) = .ok map :=
    ⟨_, by rw [ofCodes, dif_pos hlength, dif_pos h.distinct]⟩
  obtain ⟨map, hmap⟩ := hmade
  exact ⟨map, ofCodes_eq_ok_iff.mp hmap⟩

/-- A code belongs to the key in whose place it stands, and to no other. -/
theorem key?_eq_some_iff {code : Int} {key : Key} :
    map.key? code = some key ↔ map.codes.get key = code := by
  have hdistinct := List.pairwise_iff_getElem.mp map.distinct
  unfold key? Vector.findFinIdx?
  simp only [Option.map_eq_some_iff, Array.findFinIdx?_eq_some_iff, beq_iff_eq]
  constructor
  · rintro ⟨place, ⟨hfound, -⟩, rfl⟩
    exact hfound
  · intro hfound
    refine ⟨key.cast map.codes.size_toArray.symm, ⟨hfound, ?_⟩, rfl⟩
    -- The same code in an earlier place would be a duplicate.
    intro j hj hsame
    have hlt : j.val < key.val := hj
    have hle := key.isLt
    exact hdistinct j key (by simp; omega) (by simp) hlt (hsame.trans hfound.symm)

/-! ## Reading -/

/-- What is made of sixteen numbers that were read. -/
def made (folding : Bool) (codes : List Int) : Except ParseError KeyMap :=
  if folding then foldAll codes >>= ofCodes else ofCodes codes

/-- A map is made of sixteen numbers if they can be folded, and holds them folded in order. -/
theorem made_eq_ok_iff : made folding codes = .ok map ↔
    (folding = true → ∀ code ∈ codes, 0 ≤ code) ∧
      map.codes.toList = codes.map (held folding) := by
  cases folding with
  | false =>
    have hheld : codes.map (held false) = codes := List.map_id codes
    rw [hheld]
    exact ofCodes_eq_ok_iff.trans ⟨fun h => ⟨fun hfalse => absurd hfalse (by decide), h⟩, And.right⟩
  | true =>
    show foldAll codes >>= ofCodes = .ok map ↔ _
    rw [Text.bind_eq_ok_iff]
    constructor
    · rintro ⟨folded, hfolded, hmap⟩
      obtain ⟨hletters, rfl⟩ := foldAll_eq_ok_iff.mp hfolded
      exact ⟨fun _ => hletters, ofCodes_eq_ok_iff.mp hmap⟩
    · rintro ⟨hletters, hholds⟩
      exact ⟨_, foldAll_eq_ok_iff.mpr ⟨hletters rfl, rfl⟩, ofCodes_eq_ok_iff.mpr hholds⟩

/-- Sixteen numbers that no map is made of hold a duplicate, or one that is no letter. -/
theorem made_eq_error {e : ParseError} (hlength : codes.length = 16)
    (h : made folding codes = .error e) :
    e = .duplicate ∨
      (∃ cause, e = .noLetter cause) ∧ folding = true ∧ ∃ code ∈ codes, code < 0 := by
  -- Numbers that are as many as the keys are only refused for a duplicate.
  have hduplicate {numbers : List Int} (hnumbers : numbers.length = 16)
      (hmade : ofCodes numbers = .error e) : e = .duplicate := by
    by_cases hdistinct : numbers.Nodup
    · rw [ofCodes, dif_pos hnumbers, dif_pos hdistinct] at hmade
      cases hmade
    · rw [ofCodes_of_duplicate hnumbers hdistinct] at hmade
      exact (Except.error.inj hmade).symm
  cases folding with
  | false => exact .inl (hduplicate hlength h)
  -- Folding may fail for a negative number, and it comes before the search for duplicates.
  | true =>
    have hmade : foldAll codes >>= ofCodes = .error e := h
    rcases Text.bind_eq_error_iff.mp hmade with hfolded | ⟨folded, hfolded, hmade⟩
    · obtain ⟨hletter, hnegative⟩ := exists_of_foldAll_eq_error hfolded
      exact .inr ⟨hletter, rfl, hnegative⟩
    · obtain ⟨-, rfl⟩ := foldAll_eq_ok_iff.mp hfolded
      exact .inl (hduplicate ((List.length_map _).trans hlength) hmade)

/-- The outcome for sixteen numbers. -/
theorem parse_of_lists (h : Lists text codes) (hlength : codes.length = 16) :
    parse text folding = made folding codes := by
  obtain ⟨fields, hfields, hcodes⟩ := h
  have hsixteen : fields.length = 16 := hcodes.length_eq.trans hlength
  simp only [parse, Text.splitOn_eq_iff.mpr hfields, if_pos hsixteen, fields_read_iff.mpr hcodes]
  rfl

/-- The outcome for all other texts. -/
theorem parse_of_not_lists (h : ¬ ∃ codes, Lists text codes ∧ codes.length = 16) (folding : Bool) :
    parse text folding = .error .wrongCount ∨ parse text folding = .error .notNumbers := by
  unfold parse
  simp only
  -- There are not sixteen fields, or one of them writes no number.
  split
  · next hsixteen =>
    split
    · exact .inr rfl
    · next codes hcodes =>
      -- Fields that are all read would be sixteen numbers.
      have hread := fields_read_iff.mp hcodes
      exact absurd ⟨codes, ⟨_, Text.splitOn_eq_iff.mp rfl, hread⟩,
        hread.length_eq.symm.trans hsixteen⟩ h
  · exact .inl rfl

/-- A key map is read exactly if it lists numbers that a map can be made of, and holds
them in order. -/
theorem parse_eq_ok_iff : parse text folding = .ok map ↔
    ∃ codes, Lists text codes ∧ Usable folding codes ∧
      map.codes.toList = codes.map (held folding) := by
  constructor
  · intro h
    by_cases hlists : ∃ codes, Lists text codes ∧ codes.length = 16
    · obtain ⟨codes, hcodes, hlength⟩ := hlists
      rw [parse_of_lists hcodes hlength] at h
      obtain ⟨hletters, hholds⟩ := made_eq_ok_iff.mp h
      exact ⟨codes, hcodes, ⟨hlength, hletters, hholds ▸ map.distinct⟩, hholds⟩
    · rcases parse_of_not_lists hlists folding with hnone | hnone
      · rw [hnone] at h
        cases h
      · rw [hnone] at h
        cases h
  · rintro ⟨codes, hcodes, husable, hholds⟩
    rw [parse_of_lists hcodes husable.length]
    exact made_eq_ok_iff.mpr ⟨husable.letters, hholds⟩

/-- What a refusal is about. -/
theorem parse_eq_error {e : ParseError} (h : parse text folding = .error e) :
    e.Reported ∨ (∃ cause, e = .noLetter cause) ∧ folding = true ∧
      ∃ codes, Lists text codes ∧ codes.length = 16 ∧ ∃ code ∈ codes, code < 0 := by
  by_cases hlists : ∃ codes, Lists text codes ∧ codes.length = 16
  · obtain ⟨codes, hcodes, hlength⟩ := hlists
    rw [parse_of_lists hcodes hlength] at h
    rcases made_eq_error hlength h with rfl | ⟨hletter, hfolding, hnegative⟩
    · exact .inl trivial
    · exact .inr ⟨hletter, hfolding, codes, hcodes, hlength, hnegative⟩
  · rcases parse_of_not_lists hlists folding with hnone | hnone
    · rw [hnone] at h
      cases h
      exact .inl trivial
    · rw [hnone] at h
      cases h
      exact .inl trivial

/-- A negative number among sixteen has no letter, whatever else is wrong with them. -/
theorem parse_of_negative (h : Lists text codes) (hlength : codes.length = 16)
    (hnegative : ∃ code ∈ codes, code < 0) : ∃ cause, parse text true = .error (.noLetter cause) := by
  rw [parse_of_lists h hlength]
  cases hfolded : foldAll codes with
  | ok folded =>
    obtain ⟨code, hmem, hlt⟩ := hnegative
    have hletter := (foldAll_eq_ok_iff.mp hfolded).1 code hmem
    omega
  | error e =>
    obtain ⟨⟨cause, rfl⟩, -⟩ := exists_of_foldAll_eq_error hfolded
    refine ⟨cause, ?_⟩
    show foldAll codes >>= ofCodes = _
    rw [hfolded]
    rfl

/-! ## All texts -/

/-- Reading a key map, for every text and with letters folded or not:

* a map is read exactly if the text lists sixteen numbers that are different to the map,
  and none of them is negative where letters are folded;
* the map then sends the number in each place to the key of that place, and has no other
  entry;
* every other text is refused with a report of what is wrong with it, unless letters are
  to be folded and one of the sixteen numbers that it lists is negative. -/
theorem read_unless_negative (text : Text) (folding : Bool) :
    ((∃ map, parse text folding = .ok map) ↔ ∃ codes, Lists text codes ∧ Usable folding codes) ∧
      (∀ map, parse text folding = .ok map → ∃ codes, Lists text codes ∧ Usable folding codes ∧
        ∀ code key, map.key? code = some key ↔
          (codes.map (held folding))[key.val]? = some code) ∧
      ∀ e, parse text folding = .error e →
        (e.Reported ↔ ¬ (folding = true ∧
          ∃ codes, Lists text codes ∧ codes.length = 16 ∧ ∃ code ∈ codes, code < 0)) := by
  refine ⟨?_, ?_, ?_⟩
  · constructor
    · rintro ⟨map, hmap⟩
      obtain ⟨codes, hcodes, husable, -⟩ := parse_eq_ok_iff.mp hmap
      exact ⟨codes, hcodes, husable⟩
    · rintro ⟨codes, hcodes, husable⟩
      obtain ⟨map, hholds⟩ := husable.exists_map
      exact ⟨map, parse_eq_ok_iff.mpr ⟨codes, hcodes, husable, hholds⟩⟩
  · intro map hmap
    obtain ⟨codes, hcodes, husable, hholds⟩ := parse_eq_ok_iff.mp hmap
    refine ⟨codes, hcodes, husable, ?_⟩
    intro code key
    -- The code of a key stands in its place of the list.
    have hplace : map.codes.toList[key.val]? = some (map.codes.get key) := by
      rw [List.getElem?_eq_getElem (by simp)]
      rfl
    rw [key?_eq_some_iff, ← hholds, hplace, Option.some.injEq]
  · intro e he
    constructor
    · -- A negative number that has to be folded is refused with a word about letters.
      rintro hreported ⟨rfl, codes, hcodes, hlength, hnegative⟩
      obtain ⟨cause, hcause⟩ := parse_of_negative hcodes hlength hnegative
      rw [hcause] at he
      cases he
      exact hreported
    · intro hnone
      rcases parse_eq_error he with hreported | ⟨-, hnegative⟩
      · exact hreported
      · exact absurd hnegative hnone

/-- Sixteen different numbers whose first is negative: no letter is among them, so folding
changes none of them. -/
def oneNegative : List Int := [-1, 0, 1, 2, 3, 4, 5, 6, 7, 8, 9, 10, 11, 12, 13, 14]

/-- The negative number stands in the way of the key map, and the refusal does not speak of
the key map. -/
theorem negative_code_is_no_letter :
    Lists ("-1,0,1,2,3,4,5,6,7,8,9,10,11,12,13,14" : String) oneNegative ∧
      oneNegative.length = 16 ∧ (oneNegative.map (held true)).Nodup ∧
      parse ("-1,0,1,2,3,4,5,6,7,8,9,10,11,12,13,14" : String) true =
        .error (.noLetter (.negative (-1))) ∧
      ¬ (ParseError.noLetter (.negative (-1))).Reported := by
  have hlists : Lists ("-1,0,1,2,3,4,5,6,7,8,9,10,11,12,13,14" : String) oneNegative :=
    ⟨_, Text.splitOn_eq_iff.mp rfl, fields_read_iff.mp (by decide +kernel)⟩
  refine ⟨hlists, rfl, by decide, ?_, id⟩
  rw [parse_of_lists hlists rfl]
  rfl

end Chip8.KeyMap
