import Chip8.Machine.Exec
import Chip8.Proofs.Display.Collision
import Chip8.Proofs.Memory.Storing

/-!
# Chip8.Proofs.Machine.Sprite — a sprite on a picture

A sprite is drawn row by row, and drawing stops at the first row that lies
outside memory. `spriteMask` says at once which pixels a sprite selects:

* `drawRows_display` — drawing turns over what the mask selects. Rows outside
  memory select nothing, so this also holds of a sprite that was cut short.
* `drawRows_hit` — drawing says whether one of these pixels was lit.
* `drawRows_fault` — a sprite is cut short exactly if it has a row outside
  memory.
-/

namespace Chip8.Machine

open Display

variable {memory : Memory} {d : Display} {x y a : Int} {n : Nat}

/-- Whether a sprite of `n` rows, whose bits stand in memory from `a` on, selects
the place `p` of a picture. It is drawn from column `x` and row `y` on. -/
def spriteMask (memory : Memory) (x y a : Int) (n p : Nat) : Bool :=
  let row := rowOffset y p
  let column := columnOffset x p
  row < n && memory.Holds (a + row) && column < 8 &&
    (memory.byteAt (a + row)).toNat.testBit (7 - column.toNat)

/-- A sprite that starts beyond memory selects nothing. -/
theorem spriteMask_of_size_le (h : memory.size ≤ a) (p : Nat) :
    spriteMask memory x y a n p = false := by
  -- The rows are counted from where the sprite starts, so none of them lies before.
  have hout : ¬ memory.Holds (a + rowOffset y p) := by
    rw [Memory.holds_iff]
    unfold rowOffset
    omega
  simp [spriteMask, hout]

/-- The first row of a sprite and the sprite below it. There are not enough rows
to come back to the first around the edge. -/
theorem spriteMask_succ (h : memory.Holds a) (hn : n < 32) (p : Nat) :
    spriteMask memory x y a (n + 1) p =
      (rowMask x y (memory.byteAt a) p ^^ spriteMask memory x (y + 1) (a + 1) n p) := by
  -- A place in the first row is the last one that the rows below could come to.
  by_cases hrow : rowOffset y p = 0
  · have hbelow : ¬ rowOffset (y + 1) p < n := by
      unfold rowOffset at hrow ⊢
      omega
    have hfirst : (0 : Int) < n + 1 := by omega
    simp [spriteMask, rowMask, columnsMask, hrow, hbelow, hfirst, h]
  · have hbelow : rowOffset y p = rowOffset (y + 1) p + 1 := by
      unfold rowOffset at hrow ⊢
      omega
    have haddress : a + (rowOffset (y + 1) p + 1) = a + 1 + rowOffset (y + 1) p := by omega
    have hlt : rowOffset (y + 1) p + 1 < (n : Int) + 1 ↔ rowOffset (y + 1) p < n := by omega
    rw [hbelow] at hrow
    simp [spriteMask, rowMask, columnsMask, hbelow, haddress, hlt, hrow]

/-- A row that lies in memory is drawn, and then the sprite below it. -/
theorem drawRows_succ_of_holds (h : memory.Holds a) :
    drawRows memory x y a (n + 1) d =
      let first := d.drawRow x y (memory.byteAt a)
      let rest := drawRows memory x (y + 1) (a + 1) n first.1
      (rest.1, first.2 || rest.2.1, rest.2.2) := by
  simp only [drawRows, Memory.read_eq_ok h]

/-- A row that lies outside memory ends the sprite. -/
theorem drawRows_succ_of_not_holds (h : ¬ memory.Holds a) :
    drawRows memory x y a (n + 1) d = (d, false, some (.outsideMemory a memory.top)) := by
  simp only [drawRows, Memory.read_eq_error h]

/-- Drawing turns over the pixels that the sprite selects. -/
theorem drawRows_display (memory : Memory) (x y : Int) (hd : d.Standard) (ha : 0 ≤ a)
    (hn : n ≤ 32) :
    (drawRows memory x y a n d).1 = d.overlay (spriteMask memory x y a n) := by
  -- By induction on the number of rows, from the first row down.
  induction n generalizing d y a with
  | zero =>
    -- No place stands above the first row.
    refine (overlay_eq_self fun p _ => ?_).symm
    have hrow : ¬ rowOffset y p < 0 := by
      unfold rowOffset
      omega
    simp [spriteMask, hrow]
  | succ n ih =>
    by_cases h : memory.Holds a
    · have hrow := hd.drawRow_eq_overlay x y (memory.byteAt a)
      simp only [drawRows_succ_of_holds h, hrow]
      rw [ih _ (hd.overlay _) (by omega) (by omega), overlay_overlay]
      -- The rows below select other places, so turning over both is turning over once.
      exact overlay_congr fun p _ => (spriteMask_succ h (by omega) p).symm
    · -- All further rows lie outside as well, so the mask selects nothing any more.
      rw [drawRows_succ_of_not_holds h]
      rw [Memory.holds_iff] at h
      exact (overlay_eq_self fun p _ => spriteMask_of_size_le (by omega) p).symm

/-- Drawing says whether one of the pixels that the sprite selects was lit. -/
theorem drawRows_hit (memory : Memory) (x y : Int) (hd : d.Standard) (ha : 0 ≤ a)
    (hn : n ≤ 32) :
    (drawRows memory x y a n d).2.1 = d.hits (spriteMask memory x y a n) := by
  induction n generalizing d y a with
  | zero =>
    refine (hits_eq_false_of_forall fun p _ => ?_).symm
    have hrow : ¬ rowOffset y p < 0 := by
      unfold rowOffset
      omega
    simp [spriteMask, hrow]
  -- As for the picture, but what the rows hit is to be told apart.
  | succ n ih =>
    by_cases h : memory.Holds a
    · -- The rows below never come back to the first one.
      have hdisjoint : ∀ p < d.area, spriteMask memory x (y + 1) (a + 1) n p = true →
          rowMask x y (memory.byteAt a) p = false := by
        intro p _ hbelow
        have hrow : ¬ rowOffset y p = 0 := by
          simp only [spriteMask, Bool.and_eq_true, decide_eq_true_eq] at hbelow
          unfold rowOffset at hbelow ⊢
          omega
        simp [rowMask, columnsMask, hrow]
      have hrow := hd.drawRow_eq_overlay x y (memory.byteAt a)
      simp only [drawRows_succ_of_holds h, hd.drawRow_hit, hrow]
      rw [ih _ (hd.overlay _) (by omega) (by omega), hits_overlay hdisjoint, ← hits_xor hdisjoint]
      exact hits_congr fun p _ => (spriteMask_succ h (by omega) p).symm
    · rw [drawRows_succ_of_not_holds h]
      rw [Memory.holds_iff] at h
      exact (hits_eq_false_of_forall fun p _ => spriteMask_of_size_le (by omega) p).symm

/-- A sprite is cut short at its first row that lies outside memory. -/
theorem drawRows_fault (memory : Memory) (x y : Int) (d : Display) (n : Nat) (ha : 0 ≤ a) :
    (drawRows memory x y a n d).2.2 =
      if n = 0 ∨ a + n ≤ memory.size then none
      else some (.outsideMemory (max a memory.size) memory.top) := by
  induction n generalizing d y a with
  | zero => rfl
  | succ n ih =>
    by_cases h : memory.Holds a
    · have hlt := (Memory.holds_iff.mp h).2
      -- The first address that is missing is the same as seen from the next row.
      have hmax : max (a + 1) (memory.size : Int) = max a memory.size := by omega
      have hiff : (n = 0 ∨ a + 1 + (n : Int) ≤ memory.size) ↔
          (n + 1 = 0 ∨ a + ((n + 1 : Nat) : Int) ≤ memory.size) := by omega
      simp only [drawRows_succ_of_holds h]
      rw [ih _ _ (by omega)]
      simp only [hmax, hiff]
    · -- This row is the one that is named.
      rw [drawRows_succ_of_not_holds h]
      rw [Memory.holds_iff] at h
      have hlong : ¬ (n + 1 = 0 ∨ a + ((n + 1 : Nat) : Int) ≤ memory.size) := by omega
      have hmax : max a (memory.size : Int) = a := by omega
      simp only [if_neg hlong, hmax]

end Chip8.Machine
