import Chip8.Text.Basic
import Mathlib.Data.List.Basic

/-!
# Chip8.Proofs.Text.Separation — printed values that are told apart

A report prints several values one after the other, and nothing in it says how long the text
of each value is. It can be taken apart all the same where each value is `Separable`: texts
that begin with two printed values are equal only if the values are equal, and what is behind
them as well. That is so

* of values that are printed differently and in texts of one length (`separable_of_length`);
* of values that are printed differently and end with a mark that is nowhere else in their
  texts (`separable_of_mark`);
* of rows of separable values, if a row ends the text (`Separable.flatMap_inj`).
-/

namespace Chip8.Text

variable {α β : Type} {domain : α → Prop} {print : α → List β} {width : Nat} {mark : β}

/-! ## Values one after the other -/

/-- A text that begins with a printed value determines the value and the rest. -/
def Separable (domain : α → Prop) (print : α → List β) : Prop :=
  ∀ a b rest rest', domain a → domain b → print a ++ rest = print b ++ rest' → a = b ∧ rest = rest'

/-- Texts of one length are told apart if they differ. -/
theorem separable_of_length (hlength : ∀ a, domain a → (print a).length = width)
    (hinjective : ∀ a b, domain a → domain b → print a = print b → a = b) :
    Separable domain print := by
  intro a b rest rest' ha hb h
  have hsame : (print a).length = (print b).length := (hlength a ha).trans (hlength b hb).symm
  obtain ⟨hprint, hrest⟩ := List.append_inj h hsame
  exact ⟨hinjective a b ha hb hprint, hrest⟩

/-- Texts without a mark are told apart if the mark ends them. -/
theorem append_mark_inj {xs ys rest rest' : List β} (hxs : mark ∉ xs) (hys : mark ∉ ys)
    (h : xs ++ mark :: rest = ys ++ mark :: rest') : xs = ys ∧ rest = rest' := by
  -- The longer one goes on where the shorter one has its mark.
  rcases List.append_eq_append_iff.mp h with ⟨more, rfl, hmore⟩ | ⟨more, rfl, hmore⟩
  · cases more with
    | nil => exact ⟨(List.append_nil xs).symm, (List.cons.inj hmore).2⟩
    | cons c more =>
      obtain ⟨rfl, -⟩ := List.cons.inj hmore
      exact absurd (List.mem_append_right xs List.mem_cons_self) hys
  · cases more with
    | nil => exact ⟨List.append_nil ys, (List.cons.inj hmore).2.symm⟩
    | cons c more =>
      obtain ⟨rfl, -⟩ := List.cons.inj hmore
      exact absurd (List.mem_append_right ys List.mem_cons_self) hxs

/-- Values that are printed without a mark are told apart if the mark ends each of them. -/
theorem separable_of_mark (hmark : ∀ a, domain a → mark ∉ print a)
    (hinjective : ∀ a b, domain a → domain b → print a = print b → a = b) :
    Separable domain fun a => print a ++ [mark] := by
  intro a b rest rest' ha hb h
  rw [List.append_assoc, List.append_assoc] at h
  obtain ⟨hprint, hrest⟩ := append_mark_inj (hmark a ha) (hmark b hb) h
  exact ⟨hinjective a b ha hb hprint, hrest⟩

/-- A row of printed values determines how many there are, and each of them. -/
theorem Separable.flatMap_inj (h : Separable domain print)
    (hprinted : ∀ a, domain a → print a ≠ []) {xs ys : List α} (hxs : ∀ x ∈ xs, domain x)
    (hys : ∀ y ∈ ys, domain y) (heq : xs.flatMap print = ys.flatMap print) : xs = ys := by
  -- By induction on the first row, for all second rows.
  induction xs generalizing ys with
  | nil =>
    cases ys with
    | nil => rfl
    | cons y ys =>
      -- A value more would show.
      have hempty := (List.append_eq_nil_iff.mp heq.symm).1
      exact absurd hempty (hprinted y (hys y List.mem_cons_self))
  | cons x xs ih =>
    cases ys with
    | nil =>
      have hempty := (List.append_eq_nil_iff.mp heq).1
      exact absurd hempty (hprinted x (hxs x List.mem_cons_self))
    | cons y ys =>
      obtain ⟨hx, hmore⟩ := List.forall_mem_cons.mp hxs
      obtain ⟨hy, hmore'⟩ := List.forall_mem_cons.mp hys
      rw [List.flatMap_cons, List.flatMap_cons] at heq
      obtain ⟨rfl, hrest⟩ := h x y _ _ hx hy heq
      rw [ih hmore hmore' hrest]

/-! ## Texts of strings -/

/-- Strings with the same text are the same. -/
theorem ofString_injective : Function.Injective ofString := by
  intro s t h
  have hchar : Function.Injective CodePoint.char := fun _ _ h => CodePoint.char.inj h
  exact String.toList_injective (hchar.list_map h)

theorem ofString_append (s t : String) : ofString (s ++ t) = ofString s ++ ofString t := by
  rw [ofString, String.toList_append, List.map_append]
  rfl

theorem ofString_join (fields : List String) :
    ofString (String.join fields) = fields.flatMap ofString := by
  rw [ofString, String.toList_join, List.map_flatMap]
  rfl

theorem length_ofString (s : String) : (ofString s).length = s.toList.length :=
  List.length_map _

theorem char_mem_ofString {c : Char} {s : String} : .char c ∈ ofString s ↔ c ∈ s.toList := by
  constructor
  · intro h
    obtain ⟨c', hmem, heq⟩ := List.mem_map.mp h
    exact CodePoint.char.inj heq ▸ hmem
  · exact List.mem_map_of_mem

end Chip8.Text
