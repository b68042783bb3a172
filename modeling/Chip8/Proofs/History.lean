import Mathlib.Data.List.DropRight
import Mathlib.Data.List.Induction
import Mathlib.Tactic.Tauto

/-!
# Chip8.Proofs.History — the last of what happened

What happened is a list that grows at its end. Much that is said of it looks for the last
entry of a kind, so the lemmas here tell what one more entry changes: it is the one that was
looked for, or it stands behind that one.
-/

namespace Chip8.History

variable {α β : Type} {entries before after : List α} {entry last : α}

/-- An entry of a list that has grown is the new one, or it was there before. -/
theorem concat_eq_append_cons_iff :
    entries ++ [last] = before ++ entry :: after ↔
      (entries = before ∧ last = entry ∧ after = []) ∨
        ∃ between, after = between ++ [last] ∧ entries = before ++ entry :: between := by
  constructor
  · intro h
    -- The new list ends either at the entry or behind it.
    rcases List.eq_nil_or_concat after with rfl | ⟨between, final, rfl⟩
    · obtain ⟨hbefore, hlast⟩ := List.append_inj' h rfl
      exact .inl ⟨hbefore, List.singleton_inj.mp hlast, rfl⟩
    · rw [List.concat_eq_append, ← List.cons_append, ← List.append_assoc] at h
      obtain ⟨hbefore, hlast⟩ := List.append_inj' h rfl
      cases List.singleton_inj.mp hlast
      exact .inr ⟨between, List.concat_eq_append, hbefore⟩
  · rintro (⟨rfl, rfl, rfl⟩ | ⟨between, rfl, rfl⟩)
    · rfl
    · rw [List.append_assoc, List.cons_append]

/-- There is an entry of a kind, and all behind it are of another kind. -/
def HasLast (kind behind : α → Prop) (entries : List α) : Prop :=
  ∃ before entry after, entries = before ++ entry :: after ∧ kind entry ∧
    ∀ later ∈ after, behind later

variable {kind behind : α → Prop}

theorem not_hasLast_nil : ¬ HasLast kind behind [] := by
  rintro ⟨before, entry, after, heq, -⟩
  exact List.append_ne_nil_of_right_ne_nil before (List.cons_ne_nil entry after) heq.symm

/-- The last entry of a kind is the new one, or it was there and the new one may stand behind
it. -/
theorem hasLast_concat :
    HasLast kind behind (entries ++ [last]) ↔
      kind last ∨ (behind last ∧ HasLast kind behind entries) := by
  constructor
  · rintro ⟨before, entry, after, heq, hkind, hbehind⟩
    rcases concat_eq_append_cons_iff.mp heq with ⟨-, rfl, -⟩ | ⟨between, rfl, rfl⟩
    · exact .inl hkind
    · rw [List.forall_mem_append, List.forall_mem_singleton] at hbehind
      exact .inr ⟨hbehind.2, before, entry, between, rfl, hkind, hbehind.1⟩
  · rintro (hkind | ⟨hlast, before, entry, between, rfl, hkind, hbehind⟩)
    · exact ⟨entries, last, [], rfl, hkind, fun _ hm => (List.not_mem_nil hm).elim⟩
    · refine ⟨before, entry, between ++ [last], ?_, hkind, ?_⟩
      · exact concat_eq_append_cons_iff.mpr (.inr ⟨between, rfl, rfl⟩)
      · exact List.forall_mem_append.mpr ⟨hbehind, List.forall_mem_singleton.mpr hlast⟩

/-- Of entries and more of them, one of the latter is the last of a kind, or all of these may
stand behind it. -/
theorem hasLast_append (more : List α) :
    HasLast kind behind (entries ++ more) ↔
      HasLast kind behind more ∨
        ((∀ later ∈ more, behind later) ∧ HasLast kind behind entries) := by
  -- By induction on the later entries, each of which is a case of the lemma before.
  induction more using List.reverseRecOn with
  | nil =>
    rw [List.append_nil]
    constructor
    · intro h
      exact .inr ⟨List.forall_mem_nil _, h⟩
    · rintro (h | h)
      · exact absurd h not_hasLast_nil
      · exact h.2
  | append_singleton more last ih =>
    rw [← List.append_assoc, hasLast_concat, hasLast_concat, ih, List.forall_mem_append,
      List.forall_mem_singleton]
    tauto

/-- The last of some entries of a kind. -/
theorem hasLast_of_forall (hne : entries ≠ []) (hkind : ∀ entry ∈ entries, kind entry) :
    HasLast kind behind entries := by
  rcases List.eq_nil_or_concat entries with rfl | ⟨before, last, rfl⟩
  · exact absurd rfl hne
  · rw [List.concat_eq_append, List.forall_mem_append, List.forall_mem_singleton] at hkind
    rw [List.concat_eq_append]
    exact hasLast_concat.mpr (.inl hkind.2)

/-- The entries behind the last one of a kind, all of them if there is none. -/
def since (kind : α → Bool) (entries : List α) : List α := entries.rtakeWhile fun e => !kind e

theorem since_of_kind {kind : α → Bool} (h : kind last = true) (entries : List α) :
    since kind (entries ++ [last]) = [] :=
  List.rtakeWhile_concat_neg _ _ _ (by rw [h]; exact Bool.false_ne_true)

/-- An entry of another kind stands behind the last one of the kind. -/
theorem since_concat {kind : α → Bool} (h : kind last = false) (entries : List α) :
    since kind (entries ++ [last]) = since kind entries ++ [last] :=
  List.rtakeWhile_concat_pos _ _ _ (by rw [h]; rfl)

/-- The last entry of a kind is the last entry, or that is of another kind. -/
theorem getLast?_filter_concat (kind : α → Bool) (entries : List α) (last : α) :
    ((entries ++ [last]).filter kind).getLast? =
      if kind last then some last else (entries.filter kind).getLast? := by
  -- The filter keeps the new entry, or it does not.
  cases hkind : kind last <;> simp [hkind]

/-- What the last entry holds is the last of what all entries hold, or it holds nothing. -/
theorem getLast?_filterMap_concat (held? : α → Option β) (entries : List α) (last : α) :
    ((entries ++ [last]).filterMap held?).getLast? =
      (held? last).or (entries.filterMap held?).getLast? := by
  cases hheld : held? last <;> simp [hheld]

end Chip8.History
