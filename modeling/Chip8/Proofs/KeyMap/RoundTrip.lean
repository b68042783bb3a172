import Chip8.Proofs.KeyMap.Reading
import Chip8.Proofs.Text.Printing
import Mathlib.Data.List.FinRange
import Mathlib.Data.Set.Card

/-!
# Chip8.Proofs.KeyMap.RoundTrip — printed key maps are read back

Sixteen codes are printed as a text with commas between them (`listing`), each in one of the
ways in which a number may be printed. Reading the text gives a map that sends each code to
its key again (`Sends`), unless the map folds letters and two codes become the same.

A permutation of the fields permutes the codes, so it permutes the keys: `parse_permuted`
says this of all texts that are read, printed or not.
-/

namespace Chip8.KeyMap

variable {codes : Key → Int} {fields : Key → Text} {map : KeyMap} {folding : Bool}
  {numbers : List Int}

/-- The text with these fields, one for each key. -/
def listing (fields : Key → Text) : Text := Text.joined [.char ','] (List.ofFn fields)

/-- The map sends each of these codes to its key, and it has these sixteen entries only. -/
structure Sends (map : KeyMap) (codes : Key → Int) : Prop where
  key? : ∀ code key, map.key? code = some key ↔ codes key = code
  entries : {code | (map.key? code).isSome}.ncard = 16

/-! ## Fields -/

/-- Lists of the same size are related place by place. -/
theorem forall₂_ofFn {α β : Type} {size : Nat} {R : α → β → Prop} {f : Fin size → α}
    {g : Fin size → β} : List.Forall₂ R (List.ofFn f) (List.ofFn g) ↔ ∀ k, R (f k) (g k) := by
  simp only [List.forall₂_iff_get, List.length_ofFn, List.get_ofFn, true_and]
  constructor
  · intro h k
    exact h k.val k.isLt k.isLt
  · intro h k hk _
    exact h ⟨k, hk⟩

theorem exists_ofFn_of_length {α : Type} {size : Nat} {l : List α} (h : l.length = size) :
    ∃ f : Fin size → α, l = List.ofFn f := by
  subst h
  exact ⟨l.get, (List.ofFn_get l).symm⟩

/-- What sixteen fields list are sixteen numbers, each written by the field in its place. -/
theorem lists_listing_iff (hplain : ∀ key, .char ',' ∉ fields key) :
    Lists (listing fields) numbers ↔ ∃ codes : Key → Int, numbers = List.ofFn codes ∧
      ∀ key, Text.Spells Text.WritesDecimal (fields key) (codes key) := by
  have hfields : Text.Fields (listing fields) (List.ofFn fields) :=
    ⟨by simp, List.forall_mem_ofFn_iff.mpr hplain, rfl⟩
  constructor
  · rintro ⟨fields', hfields', hnumbers⟩
    -- A text is split in one way only.
    obtain rfl := (Text.splitOn_eq_iff.mpr hfields').symm.trans (Text.splitOn_eq_iff.mpr hfields)
    obtain ⟨codes, rfl⟩ := exists_ofFn_of_length (hnumbers.length_eq.symm.trans List.length_ofFn)
    exact ⟨codes, rfl, forall₂_ofFn.mp hnumbers⟩
  · rintro ⟨codes, rfl, hcodes⟩
    exact ⟨_, hfields, forall₂_ofFn.mpr hcodes⟩

/-- A field that writes a number has no comma. -/
theorem plain_of_spells {field : Text} {n : Int} (h : Text.Spells Text.WritesDecimal field n) :
    .char ',' ∉ field := by
  obtain ⟨cs, rfl, hwrites⟩ := h
  simpa using hwrites.comma_not_mem

/-! ## Maps -/

/-- No code is sent to two keys. -/
theorem Sends.injective (h : map.Sends codes) : codes.Injective := by
  intro key other hsame
  have hkey : map.key? (codes other) = some key := (h.key? _ key).mpr hsame
  have hother : map.key? (codes other) = some other := (h.key? _ other).mpr rfl
  exact Option.some.inj (hkey.symm.trans hother)

/-- A map that holds codes in order sends them to their keys. -/
theorem sends_of_holds (h : map.codes.toList = List.ofFn codes) : map.Sends codes := by
  have hget (key : Key) : map.codes.get key = codes key := by
    have hplace : map.codes.toList[key.val] = (List.ofFn codes)[key.val] := by
      congr 1
    rw [List.getElem_ofFn] at hplace
    exact hplace
  have hinjective : codes.Injective := List.nodup_ofFn.mp (h ▸ map.distinct)
  have hkey (code : Int) (key : Key) : map.key? code = some key ↔ codes key = code := by
    rw [key?_eq_some_iff, hget]
  refine ⟨hkey, ?_⟩
  -- The entries of the map are the codes, and these are sixteen different ones.
  have hrange : {code | (map.key? code).isSome} = Set.range codes := by
    ext code
    simp only [Set.mem_ofPred_eq, Option.isSome_iff_exists, hkey, Set.mem_range]
  rw [hrange, ← Set.image_univ, Set.ncard_image_of_injective _ hinjective, Set.ncard_univ]
  simp

/-- Sixteen codes that can be told apart make a map that sends them to their keys. -/
theorem made_of_injective (hletters : folding = true → ∀ key, 0 ≤ codes key)
    (h : Function.Injective (held folding ∘ codes)) :
    ∃ map, made folding (List.ofFn codes) = .ok map ∧ map.Sends (held folding ∘ codes) := by
  have husable : Usable folding (List.ofFn codes) :=
    ⟨List.length_ofFn, fun hfolding => List.forall_mem_ofFn_iff.mpr (hletters hfolding),
      by rw [List.map_ofFn]; exact List.nodup_ofFn.mpr h⟩
  obtain ⟨map, hholds⟩ := husable.exists_map
  exact ⟨map, made_eq_ok_iff.mpr ⟨husable.letters, hholds⟩,
    sends_of_holds (by rw [hholds, List.map_ofFn])⟩

/-- Sixteen codes that can not make none. -/
theorem made_of_not_injective (hletters : folding = true → ∀ key, 0 ≤ codes key)
    (h : ¬ Function.Injective (held folding ∘ codes)) :
    made folding (List.ofFn codes) = .error .duplicate := by
  cases hmade : made folding (List.ofFn codes) with
  -- A map would send two keys apart that have the same code.
  | ok map =>
    obtain ⟨-, hholds⟩ := made_eq_ok_iff.mp hmade
    rw [List.map_ofFn] at hholds
    exact absurd (sends_of_holds hholds).injective h
  | error e =>
    rcases made_eq_error List.length_ofFn hmade with rfl | ⟨-, hfolding, code, hmem, hnegative⟩
    · rfl
    · obtain ⟨key, rfl⟩ := List.mem_ofFn.mp hmem
      have := hletters hfolding key
      omega

/-! ## Reading -/

/-- Fields that write codes are read as these codes. -/
theorem parse_listing (h : ∀ key, Text.Spells Text.WritesDecimal (fields key) (codes key)) :
    parse (listing fields) folding = made folding (List.ofFn codes) :=
  parse_of_lists ((lists_listing_iff fun key => plain_of_spells (h key)).mpr ⟨codes, rfl, h⟩)
    List.length_ofFn

/-- If the fields of a key map are permuted, its keys are permuted in the same way. -/
theorem parse_permuted (hplain : ∀ key, .char ',' ∉ fields key) (order : Equiv.Perm Key)
    (h : parse (listing fields) folding = .ok map) :
    ∃ map', parse (listing (fields ∘ order)) folding = .ok map' ∧
      ∀ code, (map'.key? code).map order = map.key? code := by
  obtain ⟨_, hlists, husable, hholds⟩ := parse_eq_ok_iff.mp h
  obtain ⟨codes, rfl, hcodes⟩ := (lists_listing_iff hplain).mp hlists
  rw [List.map_ofFn] at hholds
  have hsent : map.Sends (held folding ∘ codes) := sends_of_holds hholds
  -- In another order the codes are as different and as good for folding as before.
  have hletters (hfolding : folding = true) (key : Key) : 0 ≤ codes key :=
    husable.letters hfolding (codes key) (List.mem_ofFn.mpr ⟨key, rfl⟩)
  obtain ⟨map', hmade, hsends⟩ : ∃ map', made folding (List.ofFn (codes ∘ order)) = .ok map' ∧
      map'.Sends (held folding ∘ codes ∘ order) :=
    made_of_injective (fun hfolding key => hletters hfolding (order key))
      (hsent.injective.comp order.injective)
  refine ⟨map', (parse_listing fun key => hcodes (order key)).trans hmade, fun code => ?_⟩
  ext key
  rw [hsent.key?, Option.map_eq_some_iff]
  simp only [hsends.key?]
  -- The permuted map finds a key, and the order leads back to the place where its field stood.
  constructor
  · rintro ⟨key', hcode, rfl⟩
    exact hcode
  · intro hcode
    exact ⟨order.symm key, by simpa using hcode, order.apply_symm_apply key⟩

/-- Key maps are read back from what they are printed as. Whatever the codes are, and in
whichever ways they are printed:

* if they are different, reading them gives the map that sends each to its key;
* if letters are folded and no code is negative, reading them gives the map that sends each
  folded code to its key, or a refusal because two of these are the same;
* if the fields are put in another order, the keys are put in the same order. -/
theorem printed_map_is_read_back
    (h : ∀ key, Text.Spells Text.Prints (fields key) (codes key)) :
    (codes.Injective → ∃ map, parse (listing fields) false = .ok map ∧ map.Sends codes) ∧
      ((∀ key, 0 ≤ codes key) →
        ((smallLetter ∘ codes).Injective →
          ∃ map, parse (listing fields) true = .ok map ∧ map.Sends (smallLetter ∘ codes)) ∧
        (¬ (smallLetter ∘ codes).Injective → parse (listing fields) true = .error .duplicate)) ∧
      ∀ (order : Equiv.Perm Key) (folding : Bool) (map : KeyMap),
        parse (listing fields) folding = .ok map →
          ∃ map', parse (listing (fields ∘ order)) folding = .ok map' ∧
            ∀ code, (map'.key? code).map order = map.key? code := by
  have hwrites (key : Key) : Text.Spells Text.WritesDecimal (fields key) (codes key) := by
    obtain ⟨cs, hcs, hprints⟩ := h key
    exact ⟨cs, hcs, hprints.writes⟩
  simp only [parse_listing hwrites]
  refine ⟨fun hinjective => ?_, fun hletters => ⟨fun hinjective => ?_, fun hduplicate => ?_⟩,
    fun order folding map hmap => ?_⟩
  · exact made_of_injective (fun hfalse => absurd hfalse (by decide)) hinjective
  · exact made_of_injective (fun _ => hletters) hinjective
  · exact made_of_not_injective (fun _ => hletters) hduplicate
  · exact parse_permuted (fun key => plain_of_spells (hwrites key)) order
      ((parse_listing hwrites).trans hmap)

/-- The codes of the letters `A` to `P`. -/
def capitals (key : Key) : Int := 65 + key.val

/-- A capital letter printed with a sign, a zero and blanks that it does not need. -/
def spacedCapital (key : Key) : Text :=
  ([' '] ++ (['+'] ++ Text.digitsOf 1 (capitals key).natAbs) ++ [' ']).map .char

/-- The small letter `a` is key `0`, and with the fields turned around it is key `F`. -/
theorem capitals_are_read_back :
    (∀ key, Text.Spells Text.Prints (spacedCapital key) (capitals key)) ∧
      ∃ map, parse (listing spacedCapital) true = .ok map ∧ map.key? 97 = some 0 ∧
        ∃ map', parse (listing (spacedCapital ∘ Fin.revPerm)) true = .ok map' ∧
          map'.key? 97 = some 15 := by
  -- One zero and a sign are allowed, and so are blanks around the number.
  have hprints (key : Key) : Text.Spells Text.Prints (spacedCapital key) (capitals key) := by
    have hsigned : ∀ key, capitals key = Text.signed false (capitals key).natAbs := by decide
    have hlength : ∀ key, (Text.digitsOf 1 (capitals key).natAbs).length ≤
        Text.maxDecimalDigits := by decide +kernel
    have hblank : Text.AllBlank [' '] := by
      intro c hc
      obtain rfl := List.mem_singleton.mp hc
      decide
    exact ⟨_, rfl, false, 1, ⟨[' '], ['+'], [' '], rfl, hblank, hblank, by decide⟩,
      hsigned key, hlength key⟩
  obtain ⟨-, hfolded, hpermuted⟩ := printed_map_is_read_back hprints
  obtain ⟨map, hmap, hsends⟩ := (hfolded (by decide)).1 (by decide)
  have hkey : map.key? 97 = some 0 := (hsends.key? 97 0).mpr (by decide)
  obtain ⟨map', hmap', hkeys⟩ := hpermuted Fin.revPerm true map hmap
  refine ⟨hprints, map, hmap, hkey, map', hmap', ?_⟩
  obtain ⟨key, hkey', hturned⟩ := Option.map_eq_some_iff.mp ((hkeys 97).trans hkey)
  rw [hkey', Fin.rev_eq_iff.mp hturned]
  rfl

end Chip8.KeyMap
