import Chip8.Display
import Mathlib.Data.Int.ModEq

/-!
# Chip8.Proofs.Display.Pixels — the places and the bytes of pixels

The pixels of a picture stand row after row. In a picture that has a pixel for every column
of every row (`Display.Whole`) each pair of coordinates, wrapped at the edges, has a place of
its own:

* `Whole.location_eq` and `Whole.location_lt` — the place is the row times the width and the
  column, and it is one of the picture.
* `Whole.location_eq_iff` — two pairs of coordinates have the same place exactly if both
  wrap to the same column and to the same row.

A frame has one byte for each place (`size_frame`), which is zero or one (`mem_frame`).
-/

namespace Chip8.Display

variable {d : Display} {px py : Int}

/-! ## Unlit pictures -/

/-- No pixel is lit where none stands as lit, not even outside the picture. -/
theorem lit_of_replicate {n : Nat} (h : d.pixels = Array.replicate n false) (px py : Int) :
    d.lit px py = false := by
  rw [lit, h, Array.getD_eq_getD_getElem?, Array.getElem?_replicate]
  split <;> rfl

theorem lit_blank (width height px py : Int) : (blank width height).lit px py = false :=
  lit_of_replicate rfl px py

/-- A picture whose pixels were all turned off has no lit one left. -/
theorem lit_unlit (d : Display) (px py : Int) : d.unlit.lit px py = false :=
  lit_of_replicate rfl px py

@[simp] theorem area_unlit (d : Display) : d.unlit.area = d.area := Array.size_replicate

/-! ## The bytes of a frame -/

theorem size_frame (d : Display) : d.frame.size = d.area := Array.size_map

/-- The bytes of a frame are ones and zeros. -/
theorem mem_frame {byte : UInt8} (h : byte ∈ d.frame) : byte = 0 ∨ byte = 1 := by
  obtain ⟨on, _, rfl⟩ := Array.mem_map.mp h
  cases on
  · exact .inl rfl
  · exact .inr rfl

/-! ## Places -/

/-- A picture with a pixel for every column of every row, of which there is at least one. -/
structure Whole (d : Display) : Prop where
  width : 1 ≤ d.width
  height : 1 ≤ d.height
  area : (d.area : Int) = d.width * d.height

/-- A new picture of a positive size has all its pixels. -/
theorem Whole.blank {width height : Int} (hwidth : 1 ≤ width) (hheight : 1 ≤ height) :
    (blank width height).Whole where
  width := hwidth
  height := hheight
  area := by
    have hnonneg : 0 ≤ width * height := Int.mul_nonneg (by omega) (by omega)
    rw [Display.area, Display.blank, Array.size_replicate, Int.toNat_of_nonneg hnonneg]

/-- The place of a wrapped row and a wrapped column is one of the picture. -/
theorem Whole.place_bounds (h : d.Whole) (x y : Int) :
    0 ≤ y % d.height * d.width + x % d.width ∧
      y % d.height * d.width + x % d.width < d.width * d.height := by
  have hwidth := h.width
  have hheight := h.height
  have hcolumn : 0 ≤ x % d.width := Int.emod_nonneg x (by omega)
  have hcolumn' : x % d.width < d.width := Int.emod_lt_of_pos x (by omega)
  have hrow : 0 ≤ y % d.height := Int.emod_nonneg y (by omega)
  have hrow' : y % d.height < d.height := Int.emod_lt_of_pos y (by omega)
  have hbefore : 0 ≤ y % d.height * d.width := Int.mul_nonneg hrow (by omega)
  -- The row ends before the picture does.
  have hend : y % d.height * d.width + d.width ≤ d.width * d.height :=
    calc y % d.height * d.width + d.width
      _ = (y % d.height + 1) * d.width := by rw [Int.add_mul, Int.one_mul]
      _ ≤ d.height * d.width := Int.mul_le_mul_of_nonneg_right (by omega) (by omega)
      _ = d.width * d.height := Int.mul_comm ..
  omega

/-- The place of a pixel is its row times the width, and its column, both wrapped. -/
theorem Whole.location_eq (h : d.Whole) (x y : Int) :
    (d.location x y : Int) = y % d.height * d.width + x % d.width := by
  obtain ⟨hnonneg, hlt⟩ := h.place_bounds x y
  have hwidth : 0 ≤ d.width := Int.le_trans (by decide) h.width
  have hheight : 0 ≤ d.height := Int.le_trans (by decide) h.height
  -- The sum is below the area, so the remainder that is taken of it does nothing.
  rw [location, Int.fmod_eq_emod_of_nonneg _ hheight, Int.fmod_eq_emod_of_nonneg _ hwidth,
    Int.emod_eq_of_lt hnonneg hlt, Int.toNat_of_nonneg hnonneg]

/-- The place of a pixel that does not wrap. -/
theorem Whole.location_of_bounds (h : d.Whole) (hleft : 0 ≤ px) (hright : px < d.width)
    (htop : 0 ≤ py) (hbottom : py < d.height) : d.location px py = (py * d.width + px).toNat := by
  have hlocation := h.location_eq px py
  rw [Int.emod_eq_of_lt hleft hright, Int.emod_eq_of_lt htop hbottom] at hlocation
  omega

/-- The place of a pixel is one of the picture. -/
theorem Whole.location_lt (h : d.Whole) (x y : Int) : d.location x y < d.area := by
  have hlocation := h.location_eq x y
  have hbounds := h.place_bounds x y
  rw [← h.area] at hbounds
  omega

/-- A place tells the row and the column that it is in. -/
theorem Whole.location_ediv_emod (h : d.Whole) (x y : Int) :
    (d.location x y : Int) / d.width = y % d.height ∧
      (d.location x y : Int) % d.width = x % d.width := by
  have hwidth := h.width
  rw [Int.ediv_emod_unique (by omega)]
  -- Two numbers are the quotient and the remainder if they add up and the second is small
  -- enough.
  refine ⟨?_, Int.emod_nonneg x (by omega), Int.emod_lt_of_pos x (by omega)⟩
  rw [h.location_eq, Int.add_comm, Int.mul_comm]

/-- Coordinates have the same place exactly if they wrap to the same column and row. -/
theorem Whole.location_eq_iff (h : d.Whole) {x y x' y' : Int} :
    d.location x y = d.location x' y' ↔ x ≡ x' [ZMOD d.width] ∧ y ≡ y' [ZMOD d.height] := by
  constructor
  · -- A place tells its row and its column, so equal places have equal ones.
    intro heq
    obtain ⟨hrow, hcolumn⟩ := h.location_ediv_emod x y
    rw [heq] at hrow hcolumn
    obtain ⟨hrow', hcolumn'⟩ := h.location_ediv_emod x' y'
    exact ⟨hcolumn.symm.trans hcolumn', hrow.symm.trans hrow'⟩
  · rintro ⟨hcolumn, hrow⟩
    have hplace : (d.location x y : Int) = d.location x' y' := by
      rw [h.location_eq, h.location_eq, hcolumn.eq, hrow.eq]
    exact Int.ofNat_inj.mp hplace

/-- The byte of a frame at the place of a pixel says whether the pixel is lit. -/
theorem Whole.frame_location (h : d.Whole) (x y : Int) :
    d.frame[d.location x y]? = some (if d.lit x y then 1 else 0) := by
  have hlt : d.location x y < d.pixels.size := h.location_lt x y
  simp [frame, lit, hlt]

end Chip8.Display
