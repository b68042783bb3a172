import Chip8.Proofs.Display.Overlay

/-!
# Chip8.Proofs.Display.Collision — when drawing turns a lit pixel off

Drawing says whether it turned a lit pixel off. `Display.hits` says the same of a
mask, from the picture as it was:

* `hits_overlay` and `hits_xor` — masks that have no place in common do not
  matter to each other, so what several draw is what one of them hits.
* `Standard.drawRow_hit` — a row of a sprite answers what its mask hits.
-/

namespace Chip8.Display

variable {d : Display}

/-! ## What a mask hits -/

/-- Whether turning over what `mask` selects turns a lit pixel off. -/
def hits (d : Display) (mask : Nat → Bool) : Bool :=
  (List.range d.area).any fun p => mask p && d.pixels.getD p false

/-- A mask hits something if it selects a place at which a pixel is lit. -/
theorem hits_eq_true_iff {mask : Nat → Bool} :
    d.hits mask = true ↔ ∃ p < d.area, mask p = true ∧ d.pixels.getD p false = true := by
  simp [hits]

/-- A mask that selects nothing hits nothing. -/
theorem hits_eq_false_of_forall {mask : Nat → Bool} (h : ∀ p < d.area, mask p = false) :
    d.hits mask = false := by
  rw [Bool.eq_false_iff, ne_eq, hits_eq_true_iff]
  rintro ⟨p, hp, hmask, -⟩
  rw [h p hp] at hmask
  cases hmask

/-- Only what a mask says about places of the picture matters to what it hits. -/
theorem hits_congr {f g : Nat → Bool} (h : ∀ p < d.area, f p = g p) : d.hits f = d.hits g := by
  rw [Bool.eq_iff_iff, hits_eq_true_iff, hits_eq_true_iff]
  constructor
  · rintro ⟨p, hp, hf, hlit⟩
    exact ⟨p, hp, h p hp ▸ hf, hlit⟩
  · rintro ⟨p, hp, hg, hlit⟩
    exact ⟨p, hp, (h p hp).symm ▸ hg, hlit⟩

/-- A mask after another one that selects other places hits what it hits on the
picture before both. -/
theorem hits_overlay {f g : Nat → Bool} (h : ∀ p < d.area, g p = true → f p = false) :
    (d.overlay f).hits g = d.hits g := by
  rw [Bool.eq_iff_iff, hits_eq_true_iff, hits_eq_true_iff, overlay_area]
  constructor
  · -- What the first mask selects the second does not, so at its places nothing changed.
    rintro ⟨p, hp, hg, hlit⟩
    rw [getD_overlay hp, h p hp hg, Bool.xor_false] at hlit
    exact ⟨p, hp, hg, hlit⟩
  · rintro ⟨p, hp, hg, hlit⟩
    refine ⟨p, hp, hg, ?_⟩
    rw [getD_overlay hp, h p hp hg, Bool.xor_false, hlit]

/-- Of two masks that have no place in common both together hit what one of them hits. -/
theorem hits_xor {f g : Nat → Bool} (h : ∀ p < d.area, g p = true → f p = false) :
    (d.hits fun p => f p ^^ g p) = (d.hits f || d.hits g) := by
  rw [Bool.eq_iff_iff, Bool.or_eq_true, hits_eq_true_iff, hits_eq_true_iff, hits_eq_true_iff]
  constructor
  · rintro ⟨p, hp, hmask, hlit⟩
    -- A place that both together select is one of just one of them.
    cases hg : g p with
    | true => exact .inr ⟨p, hp, hg, hlit⟩
    | false =>
      rw [hg, Bool.xor_false] at hmask
      exact .inl ⟨p, hp, hmask, hlit⟩
  · rintro (⟨p, hp, hf, hlit⟩ | ⟨p, hp, hg, hlit⟩)
    · refine ⟨p, hp, ?_, hlit⟩
      cases hg : g p with
      | true => rw [h p hp hg] at hf; cases hf
      | false => rw [hf, Bool.xor_false]
    · exact ⟨p, hp, by rw [hg, h p hp hg, Bool.false_xor], hlit⟩

/-! ## Pixels and rows -/

/-- To turn a pixel over says whether the mask with its place hits something. -/
theorem Standard.flip_hit (h : d.Standard) (x y : Int) :
    (d.flip x y).2 = d.hits fun p => p = d.location x y := by
  have hlocation := h.location_eq x y
  have hlt : d.location x y < d.area := by
    rw [h.area]
    omega
  rw [Bool.eq_iff_iff, hits_eq_true_iff]
  constructor
  · intro hlit
    exact ⟨d.location x y, hlt, decide_eq_true rfl, hlit⟩
  · rintro ⟨p, -, hp, hlit⟩
    rw [of_decide_eq_true hp] at hlit
    exact hlit

/-- The first columns of a row say whether their mask hits something. -/
theorem Standard.flipColumns_hit (h : d.Standard) (x y : Int) (bits : UInt8) {n : Nat}
    (hn : n ≤ 8) : (d.flipColumns x y bits n).2 = d.hits (columnsMask x y bits n) := by
  -- By induction on the number of columns, as for the picture that they leave.
  induction n with
  | zero =>
    refine (hits_eq_false_of_forall fun p _ => ?_).symm
    have hcolumn : ¬ columnOffset x p < 0 := by
      unfold columnOffset
      omega
    simp [columnsMask, hcolumn]
  | succ n ih =>
    have hleft := h.flipColumns_eq_overlay x y bits (n := n) (by omega)
    have hstandard := h.overlay (columnsMask x y bits n)
    have hlocation := hstandard.location_eq (x + n) y
    simp only [flipColumns]
    by_cases hbit : bits.toNat.testBit (7 - n) = true
    · -- The place of the new column is in none of the columns before it.
      have hdisjoint : ∀ p < d.area,
          decide (p = (d.overlay (columnsMask x y bits n)).location (x + n) y) = true →
            columnsMask x y bits n p = false := by
        intro p _ hp
        have hcolumn : ¬ columnOffset x p < n := by
          have := of_decide_eq_true hp
          unfold columnOffset
          omega
        simp [columnsMask, hcolumn]
      rw [if_pos hbit]
      simp only
      rw [hleft, hstandard.flip_hit, hits_overlay hdisjoint, ih (by omega), ← hits_xor hdisjoint]
      refine hits_congr fun p hp => ?_
      rw [columnsMask_succ x y bits (by omega) (h.area ▸ hp), ← hlocation]
      simp only [hbit, Bool.true_and, Int.natCast_inj]
    · -- A bit that is not set neither hits anything nor belongs to the mask.
      rw [if_neg hbit, ih (by omega)]
      refine hits_congr fun p hp => ?_
      rw [columnsMask_succ x y bits (by omega) (h.area ▸ hp)]
      simp [hbit]

/-- A row of a sprite says whether one of its pixels was lit. -/
theorem Standard.drawRow_hit (h : d.Standard) (x y : Int) (bits : UInt8) :
    (d.drawRow x y bits).2 = d.hits (rowMask x y bits) :=
  h.flipColumns_hit x y bits (Nat.le_refl 8)

end Chip8.Display
