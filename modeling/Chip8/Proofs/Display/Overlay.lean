import Chip8.Proofs.Display.Pixels

/-!
# Chip8.Proofs.Display.Overlay — drawing turns pixels over

Every way to draw turns some pixels over and leaves the others. A mask says
which, by the place of a pixel in the row after row order, and
`Display.overlay` turns over what a mask selects:

* `flip_eq_overlay` — one pixel is a mask with one place.
* `drawRow_eq_overlay` — a row of a sprite is the mask `rowMask`, which says for
  a place whether the row covers it and has its bit set there.

`Display.Standard` are the pictures of the size that a machine has. On them the
eight columns of a row never meet, so no pixel is turned over twice.
-/

namespace Chip8.Display

variable {d : Display}

/-- The picture with the pixels turned over that `mask` selects. -/
def overlay (d : Display) (mask : Nat → Bool) : Display :=
  { d with pixels := d.pixels.mapIdx fun p on => on ^^ mask p }

/-- A picture of 64 by 32 pixels. -/
structure Standard (d : Display) : Prop where
  width : d.width = 64
  height : d.height = 32
  area : d.area = 2048

/-! ## Overlays -/

@[simp] theorem overlay_area (mask : Nat → Bool) : (d.overlay mask).area = d.area := by
  simp [overlay, area]

theorem Standard.overlay (h : d.Standard) (mask : Nat → Bool) : (d.overlay mask).Standard where
  width := h.width
  height := h.height
  area := by rw [overlay_area, h.area]

theorem Standard.clear (h : d.Standard) : d.clear.Standard where
  width := h.width
  height := h.height
  area := d.area_unlit.trans h.area

theorem Standard.touch (h : d.Standard) : d.touch.Standard := { h with }

theorem Standard.settle (h : d.Standard) : d.settle.Standard := { h with }

/-- Only what a mask says about places of the picture matters. -/
theorem overlay_congr {f g : Nat → Bool} (h : ∀ p < d.area, f p = g p) :
    d.overlay f = d.overlay g := by
  have hpixels : d.pixels.mapIdx (fun p on => on ^^ f p) =
      d.pixels.mapIdx (fun p on => on ^^ g p) := by
    apply Array.ext
    · simp
    · intro p hp _
      have hlt : p < d.area := by simpa [area] using hp
      simp [h p hlt]
  simp only [Display.overlay, hpixels]

theorem getD_overlay {mask : Nat → Bool} {p : Nat} (hp : p < d.area) :
    (d.overlay mask).pixels.getD p false = (d.pixels.getD p false ^^ mask p) := by
  have hlt : p < d.pixels.size := hp
  simp [Display.overlay, hlt]

/-- A mask that selects nothing turns nothing over. -/
theorem overlay_eq_self {mask : Nat → Bool} (h : ∀ p < d.area, mask p = false) :
    d.overlay mask = d := by
  have hpixels : d.pixels.mapIdx (fun p on => on ^^ mask p) = d.pixels := by
    apply Array.ext
    · simp
    · intro p _ hp
      have hlt : p < d.area := hp
      simp [h p hlt]
  simp only [Display.overlay, hpixels]

/-- Two overlays are one: what both select is turned over twice. -/
theorem overlay_overlay (f g : Nat → Bool) :
    (d.overlay f).overlay g = d.overlay fun p => f p ^^ g p := by
  simp [Display.overlay, Function.comp_def]

/-! ## One pixel -/

/-- To turn one pixel over is to overlay a mask with one place. -/
theorem flip_eq_overlay (x y : Int) :
    (d.flip x y).1 = d.overlay fun p => p = d.location x y := by
  have hpixels : d.pixels.modify (d.location x y) not =
      d.pixels.mapIdx (fun p on => on ^^ decide (p = d.location x y)) := by
    apply Array.ext
    · simp
    · intro p _ _
      -- The place of the pixel, and then any other.
      by_cases hp : d.location x y = p
      · simp [Array.getElem_modify, hp]
      · have hp' : ¬ p = d.location x y := fun h => hp h.symm
        simp [Array.getElem_modify, hp, hp']
  simp only [flip, Display.overlay, hpixels]

theorem Standard.whole (h : d.Standard) : d.Whole where
  width := by rw [h.width]; decide
  height := by rw [h.height]; decide
  area := by rw [h.area, h.width, h.height]; decide

/-- Where a pixel stands in a picture of the standard size. -/
theorem Standard.location_eq (h : d.Standard) (x y : Int) :
    (d.location x y : Int) = y % 32 * 64 + x % 64 := by
  rw [h.whole.location_eq, h.width, h.height]

/-! ## One row of a sprite -/

/-- How many rows the place `p` stands below row `y`, around the edge. -/
def rowOffset (y : Int) (p : Nat) : Int := (p / 64 - y) % 32

/-- How many columns the place `p` stands to the right of column `x`, around the
edge. -/
def columnOffset (x : Int) (p : Nat) : Int := (p % 64 - x) % 64

/-- Whether the first `n` columns of a row of a sprite, drawn in row `y` from
column `x` on, select the place `p`. -/
def columnsMask (x y : Int) (bits : UInt8) (n p : Nat) : Bool :=
  rowOffset y p = 0 && columnOffset x p < n && bits.toNat.testBit (7 - (columnOffset x p).toNat)

/-- Whether a row of a sprite selects the place `p`. -/
def rowMask (x y : Int) (bits : UInt8) (p : Nat) : Bool := columnsMask x y bits 8 p

/-- The column after the first `n` is a place of its own. -/
theorem columnsMask_succ (x y : Int) (bits : UInt8) {n p : Nat} (hn : n < 8) (hp : p < 2048) :
    columnsMask x y bits (n + 1) p =
      (columnsMask x y bits n p ^^
        (bits.toNat.testBit (7 - n) && decide ((p : Int) = y % 32 * 64 + (x + n) % 64))) := by
  have hplace : (p : Int) = y % 32 * 64 + (x + n) % 64 ↔
      rowOffset y p = 0 ∧ columnOffset x p = n := by
    unfold rowOffset columnOffset
    omega
  simp only [hplace, columnsMask]
  -- The new column selects a place that none of the columns before it selects.
  by_cases hrow : rowOffset y p = 0
  · by_cases heq : columnOffset x p = n
    · have hlt : (n : Int) < n + 1 := by omega
      simp [hrow, heq, hlt]
    · have hiff : columnOffset x p < n + 1 ↔ columnOffset x p < n := by omega
      simp [hrow, heq, hiff]
  · simp [hrow]

/-- The first columns of a row of a sprite turn over what their mask selects. -/
theorem Standard.flipColumns_eq_overlay (h : d.Standard) (x y : Int) (bits : UInt8) {n : Nat}
    (hn : n ≤ 8) : (d.flipColumns x y bits n).1 = d.overlay (columnsMask x y bits n) := by
  -- By induction on the number of columns, each of which adds one place to the mask.
  induction n with
  | zero =>
    -- No column is drawn, and none stands to the left of the first one.
    refine (overlay_eq_self fun p _ => ?_).symm
    have hcolumn : ¬ columnOffset x p < 0 := by
      unfold columnOffset
      omega
    simp [columnsMask, hcolumn]
  | succ n ih =>
    have hleft := ih (by omega)
    have hlocation := (h.overlay (columnsMask x y bits n)).location_eq (x + n) y
    simp only [flipColumns]
    by_cases hbit : bits.toNat.testBit (7 - n) = true
    · -- The bit is set, so the column is one more pixel that is turned over.
      rw [if_pos hbit, hleft, flip_eq_overlay, overlay_overlay]
      refine overlay_congr fun p hp => ?_
      rw [columnsMask_succ x y bits (by omega) (h.area ▸ hp), ← hlocation]
      simp only [hbit, Bool.true_and, Int.natCast_inj]
    · -- The bit is not set, and neither is it in the mask.
      rw [if_neg hbit, hleft]
      refine overlay_congr fun p hp => ?_
      rw [columnsMask_succ x y bits (by omega) (h.area ▸ hp)]
      simp [hbit]

/-- A row of a sprite turns over the pixels of its bits. -/
theorem Standard.drawRow_eq_overlay (h : d.Standard) (x y : Int) (bits : UInt8) :
    (d.drawRow x y bits).1 = d.overlay (rowMask x y bits) :=
  h.flipColumns_eq_overlay x y bits (Nat.le_refl 8)

end Chip8.Display
