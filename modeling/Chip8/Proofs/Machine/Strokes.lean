import Chip8.Proofs.Machine.Drawing

/-!
# Chip8.Proofs.Machine.Strokes — sprites drawn one after the other

Drawing turns pixels over, so it matters how often a pixel was turned over and not
when. A `Sprite` is what is drawn, a `Stroke` also names the two registers that give
the position, and `Machine.strokeAll` draws a row of strokes:

* `Drawable.strokeAll` — no stroke of a row is cut short, and a pixel has changed
  exactly if an odd number of the sprites covers it.
* `covered_perm` and `covered_twice` — that number does not depend on the order, and a
  sprite that occurs twice does not count.
* `Draws.flag_eq_one_iff` — the flag is one exactly if a pixel that the sprite covers
  was lit.

A machine that only draws moves its counter on without end, so the bounds of a running
machine are asked of it but for the counter (`Machine.Drawable`).
-/

namespace Chip8

/-- Rows of bits in memory, and the place of the picture where they are to be drawn. -/
structure Sprite where
  /-- The address of the first row. -/
  index : Int
  column : UInt8
  row : UInt8
  height : Fin 16
  index_nonneg : 0 ≤ index
  fits : index + height.val - 1 ≤ 0xFFF

/-- A sprite, and the registers that tell its column and its row. One register can tell
both only if they are the same. -/
structure Stroke extends Sprite where
  x : Register
  y : Register
  x_ne : x ≠ flagRegister
  y_ne : y ≠ flagRegister
  agree : x = y → column = row

/-- Whether a sprite has a set bit on the pixel in column `px` and row `py`. -/
def Sprite.covers (s : Sprite) (memory : Memory) (px py : Int) : Bool :=
  let row := (py - s.row.toNat) % 32
  let column := (px - s.column.toNat) % 64
  row < s.height.val && column < 8 &&
    (memory.byteAt (s.index + row)).toNat.testBit (7 - column.toNat)

/-- Whether an odd number of sprites covers a pixel. -/
def covered (memory : Memory) (px py : Int) : List Stroke → Bool
  | [] => false
  | s :: rest => s.covers memory px py ^^ covered memory px py rest

namespace Machine

/-- The machine that is about to draw: the index points at the rows, the two registers
hold the position, and the word in progress asks for drawing. -/
def poised (m : Machine) (s : Stroke) : Machine :=
  { ({ m with i := s.index }.setReg s.x s.column).setReg s.y s.row with
    opcode := Instruction.wordOfDigits 0xD s.x s.y s.height.val }

/-- Draws a stroke. -/
def stroke (m : Machine) (s : Stroke) : Progress := (m.poised s).execute

/-- Draws strokes one after the other, up to the first that is cut short. -/
def strokeAll (m : Machine) : List Stroke → Progress
  | [] => m.finish
  | s :: rest =>
    match m.stroke s with
    | ⟨m, some fault⟩ => m.halt fault
    | ⟨m, none⟩ => m.strokeAll rest

variable {m m' : Machine} {x y : Register} {n : Nat} {height : Fin 16} {s s' : Stroke}
  {l l' : List Stroke} {px py : Int}

/-! ## Drawing with any counter -/

/-- The bounds of a running machine, but for its counter. -/
def Drawable (m : Machine) : Prop := { m with pc := programStart }.Bounded

theorem Bounded.drawable (hm : m.Bounded) : m.Drawable := hm.setPc (by decide)

/-- Drawing does not look at the counter. -/
theorem exec_draw_elsewhere (m : Machine) (x y : Register) (height : Fin 16) (a : Int) :
    ({ m with pc := a }.exec (.draw x y height)).fault = (m.exec (.draw x y height)).fault ∧
      ∃ b, ({ m with pc := a }.exec (.draw x y height)).machine =
        { (m.exec (.draw x y height)).machine with pc := b } := by
  show ({ m with pc := a }.drawSprite x y height.val).fault = (m.drawSprite x y height.val).fault ∧
    ∃ b, ({ m with pc := a }.drawSprite x y height.val).machine =
      { (m.drawSprite x y height.val).machine with pc := b }
  -- The rows are drawn before the counter is moved, and without it.
  have hrows : drawRows { m with pc := a }.memory ({ m with pc := a }.reg x).toNat
      ({ m with pc := a }.reg y).toNat { m with pc := a }.i height.val
        { m with pc := a }.display =
      drawRows m.memory (m.reg x).toNat (m.reg y).toNat m.i height.val m.display := rfl
  simp only [drawSprite, setFlag, setReg] at hrows ⊢
  rw [hrows]
  split
  · exact ⟨rfl, a, rfl⟩
  · exact ⟨rfl, _, rfl⟩

/-- What drawing makes of a machine does not speak of the counter. -/
theorem Draws.elsewhere {a : Int} (h : { m with pc := a }.Draws x y n m') (b : Int) :
    m.Draws x y n { m' with pc := b } where
  pixels := h.pixels
  hit := h.hit
  miss := h.miss
  changed := h.changed
  registers := h.registers
  index := h.index
  memory := h.memory
  stack := h.stack

/-- A sprite whose rows lie in memory is drawn, whatever the counter is. -/
theorem Drawable.draw (hm : m.Drawable) (hfits : ¬ m.Overreaches (.draw x y height)) :
    (m.exec (.draw x y height)).fault = none ∧
      m.Draws x y height.val (m.exec (.draw x y height)).machine ∧
      (m.exec (.draw x y height)).machine.Drawable := by
  obtain ⟨hfault, b, hleft⟩ :=
    exec_draw_elsewhere { m with pc := programStart } x y height m.pc
  have hsame : { { m with pc := programStart } with pc := m.pc } = m := rfl
  rw [hsame] at hfault hleft
  have hpc : (programStart : Int) ≤ 0xFFE := by decide
  rw [hfault, hleft]
  refine ⟨exec_of_fits hm hfits, (exec_draws hm hfits).elsewhere b, ?_⟩
  exact (Bounded.exec hm hpc _).setPc (by decide)

/-- Whether a sprite at the position of two registers covers a pixel that is lit. -/
def Meets (m : Machine) (x y : Register) (n : Nat) : Prop :=
  ∃ px py, Display.OnScreen px py ∧ m.spriteBit x y n px py = true ∧
    m.display.lit px py = true

/-- A sprite that meets no lit pixel leaves the flag zero. -/
theorem Draws.flag_of_not_meets (h : m.Draws x y n m') (hmeets : ¬ m.Meets x y n) :
    m'.reg flagRegister = 0 := by
  apply h.miss
  intro px py hscreen hbit
  rw [← Bool.not_eq_true]
  intro hlit
  exact hmeets ⟨px, py, hscreen, hbit, hlit⟩

/-- The flag is one exactly if the sprite met a lit pixel. -/
theorem Draws.flag_eq_one_iff (h : m.Draws x y n m') :
    m'.reg flagRegister = 1 ↔ m.Meets x y n := by
  constructor
  · intro hone
    by_cases hmeets : m.Meets x y n
    · exact hmeets
    · rw [h.flag_of_not_meets hmeets] at hone
      exact absurd hone (by decide)
  · exact h.hit

/-- The flag is never anything but zero or one. -/
theorem Draws.flag_cases (h : m.Draws x y n m') :
    m'.reg flagRegister = 0 ∨ m'.reg flagRegister = 1 := by
  by_cases hmeets : m.Meets x y n
  · exact .inr (h.hit hmeets)
  · exact .inl (h.flag_of_not_meets hmeets)

/-! ## One stroke -/

/-- The first register holds the column. -/
theorem poised_reg_x (m : Machine) (s : Stroke) : (m.poised s).reg s.x = s.column := by
  show ((m.setReg s.x s.column).setReg s.y s.row).reg s.x = s.column
  rw [reg_setReg, regWith, reg_setReg, regWith, if_pos rfl]
  -- Both registers are the same, and so are the column and the row.
  split
  · next h => exact (s.agree h).symm
  · rfl

theorem poised_reg_y (m : Machine) (s : Stroke) : (m.poised s).reg s.y = s.row := by
  show ((m.setReg s.x s.column).setReg s.y s.row).reg s.y = s.row
  rw [reg_setReg, regWith, if_pos rfl]

/-- The sprite of a machine that is about to draw is that of the stroke. -/
theorem spriteBit_poised (m : Machine) (s : Stroke) (px py : Int) :
    (m.poised s).spriteBit s.x s.y s.height.val px py = s.covers m.memory px py := by
  unfold spriteBit
  rw [poised_reg_x, poised_reg_y]
  rfl

/-- There is room for all rows of a stroke. -/
theorem not_overreaches_poised (m : Machine) (s : Stroke) :
    ¬ (m.poised s).Overreaches (.draw s.x s.y s.height) := by
  have hfits := s.fits
  show ¬ (1 ≤ s.height.val ∧ 0xFFF < s.index + s.height.val - 1)
  omega

/-- A machine that is about to draw a stroke can draw. -/
theorem Drawable.poised (hm : m.Drawable) (s : Stroke) : (m.poised s).Drawable :=
  { hm with
    i := by
      have hfits := s.fits
      show 0 ≤ s.index ∧ s.index ≤ 0xFFFF
      exact ⟨s.index_nonneg, by omega⟩
    opcode := by
      show 0 ≤ Instruction.wordOfDigits 0xD s.x s.y s.height.val ∧
        Instruction.wordOfDigits 0xD s.x s.y s.height.val ≤ 0xFFFF
      unfold Instruction.wordOfDigits
      omega }

/-- A stroke is completed, and draws its sprite. -/
theorem Drawable.stroke (hm : m.Drawable) (s : Stroke) :
    ∃ m', m.stroke s = m'.finish ∧ m'.Drawable ∧ m'.memory = m.memory ∧
      (m.poised s).Draws s.x s.y s.height.val m' := by
  have hdecode : Instruction.decode? (m.poised s).opcode = some (.draw s.x s.y s.height) :=
    Instruction.decode?_of_encodedBy rfl
  obtain ⟨hfault, hdraws, hleft⟩ := (hm.poised s).draw (m.not_overreaches_poised s)
  refine ⟨((m.poised s).exec (.draw s.x s.y s.height)).machine, ?_, hleft, hdraws.memory, hdraws⟩
  simp only [Machine.stroke, execute, hdecode, finish]
  rw [← hfault]

/-- A stroke turns over the pixels that its sprite covers. -/
theorem Draws.lit_poised (h : (m.poised s).Draws s.x s.y s.height.val m')
    (hscreen : Display.OnScreen px py) :
    m'.display.lit px py = (m.display.lit px py ^^ s.covers m.memory px py) := by
  rw [h.pixels px py hscreen, spriteBit_poised]
  rfl

/-! ## Many strokes -/

/-- The order of sprites does not matter to what an odd number of them covers. -/
theorem covered_perm (memory : Memory) (px py : Int) (h : l.Perm l') :
    covered memory px py l = covered memory px py l' := by
  -- By induction on how one order is made from the other.
  induction h with
  | nil => rfl
  | cons s _ ih => rw [covered, covered, ih]
  | swap s s' rest => exact Bool.xor_left_comm ..
  | trans _ _ ih ih' => exact ih.trans ih'

/-- A sprite that occurs twice does not count. -/
theorem covered_twice (memory : Memory) (px py : Int) (h : s.toSprite = s'.toSprite) :
    covered memory px py (s :: s' :: l) = covered memory px py l := by
  rw [covered, covered, h, ← Bool.xor_assoc, Bool.xor_self, Bool.false_xor]

/-- Strokes are all completed, and turn over the pixels that an odd number of them
covers. -/
theorem Drawable.strokeAll (hm : m.Drawable) (l : List Stroke) :
    ∃ m' : Machine, m.strokeAll l = m'.finish ∧ m'.Drawable ∧ m'.memory = m.memory ∧
      ∀ px py, Display.OnScreen px py →
        m'.display.lit px py = (m.display.lit px py ^^ covered m.memory px py l) := by
  -- By induction on the strokes, each of which starts on what those before it left.
  induction l generalizing m with
  | nil =>
    refine ⟨m, rfl, hm, rfl, ?_⟩
    intro px py _
    exact (Bool.xor_false _).symm
  | cons s rest ih =>
    obtain ⟨first, hfirst, hdrawable, hmemory, hdraws⟩ := hm.stroke s
    obtain ⟨last, hlast, hleft, hkept, hlit⟩ := ih hdrawable
    refine ⟨last, ?_, hleft, hkept.trans hmemory, ?_⟩
    · simp only [Machine.strokeAll, hfirst]
      exact hlast
    · -- The picture so far was turned over by the first stroke, and then by the others.
      intro px py hscreen
      rw [hlit px py hscreen, hdraws.lit_poised hscreen, hmemory, Bool.xor_assoc]
      rfl

/-- Pictures that agree on every pixel of the screen are equal. -/
theorem Drawable.pixels_eq (hm : m.Drawable) (hm' : m'.Drawable)
    (h : ∀ px py, Display.OnScreen px py → m.display.lit px py = m'.display.lit px py) :
    m.display.pixels = m'.display.pixels := by
  have harea : m.display.area = 2048 := hm.display.area
  have harea' : m'.display.area = 2048 := hm'.display.area
  apply Array.ext
  · exact harea.trans harea'.symm
  · intro p hp hp'
    obtain ⟨px, py, hscreen, hplace⟩ := exists_onScreen hm hp
    -- Both pictures have the pixel in the same place.
    have hplace' : m'.display.location px py = p := by
      have hlocation := location_onScreen hm hscreen
      have hlocation' := location_onScreen hm' hscreen
      simp only at hplace hlocation hlocation'
      omega
    have hlit := h px py hscreen
    simp only at hplace
    rw [Display.lit, Display.lit, hplace, hplace', Array.getD_eq_getD_getElem?,
      Array.getD_eq_getD_getElem?, Array.getElem?_eq_getElem hp,
      Array.getElem?_eq_getElem hp'] at hlit
    exact hlit

/-- Two rows of strokes that cover the same pixels leave the same picture. -/
theorem Drawable.strokeAll_pixels_eq (hm : m.Drawable)
    (h : ∀ px py, covered m.memory px py l = covered m.memory px py l') :
    (m.strokeAll l).machine.display.pixels = (m.strokeAll l').machine.display.pixels := by
  obtain ⟨left, hleft, hdrawable, -, hlit⟩ := hm.strokeAll l
  obtain ⟨left', hleft', hdrawable', -, hlit'⟩ := hm.strokeAll l'
  rw [hleft, hleft']
  -- It is enough to compare the pixels on the screen.
  apply hdrawable.pixels_eq hdrawable'
  intro px py hscreen
  rw [hlit px py hscreen, hlit' px py hscreen, h]

/-! ## The same sprite twice -/

/-- A pixel of the screen that a sprite covers and that is lit, or unlit. -/
def MeetsPixel (m : Machine) (s : Sprite) (on : Bool) : Prop :=
  ∃ px py, Display.OnScreen px py ∧ s.covers m.memory px py = true ∧
    m.display.lit px py = on

/-- The sprite of a machine that is about to draw meets what the stroke covers. -/
theorem meets_poised_iff : (m.poised s).Meets s.x s.y s.height.val ↔
    m.MeetsPixel s.toSprite true := by
  simp only [Meets, MeetsPixel, spriteBit_poised]
  rfl

/-- After a sprite was drawn, it covers a lit pixel exactly if it covered an unlit one. -/
theorem Draws.meetsPixel_iff (h : (m.poised s).Draws s.x s.y s.height.val m') :
    m'.MeetsPixel s.toSprite true ↔ m.MeetsPixel s.toSprite false := by
  have hmemory : m'.memory = m.memory := h.memory
  -- No sprite covers a pixel twice, so each of its pixels has been turned over once.
  have hturned {px py : Int} (hscreen : Display.OnScreen px py)
      (hcovers : s.covers m.memory px py = true) :
      m'.display.lit px py = !m.display.lit px py := by
    rw [h.lit_poised hscreen, hcovers, Bool.xor_true]
  unfold MeetsPixel
  rw [hmemory]
  constructor
  · rintro ⟨px, py, hscreen, hcovers, hlit⟩
    rw [hturned hscreen hcovers] at hlit
    exact ⟨px, py, hscreen, hcovers, Bool.not_eq_true' _ ▸ hlit⟩
  · rintro ⟨px, py, hscreen, hcovers, hlit⟩
    refine ⟨px, py, hscreen, hcovers, ?_⟩
    rw [hturned hscreen hcovers, hlit, Bool.not_false]

/-- A set bit of a sprite comes to lie on a pixel of the screen. -/
theorem exists_covers {row column : Nat} (memory : Memory) (s : Sprite)
    (hrow : row < s.height.val) (hcolumn : column < 8)
    (hbit : (memory.byteAt (s.index + row)).toNat.testBit (7 - column) = true) :
    ∃ px py, Display.OnScreen px py ∧ s.covers memory px py = true := by
  have hheight := s.height.isLt
  -- The pixel is found by going from the position to the bit, around the edges.
  refine ⟨(s.column.toNat + column) % 64, (s.row.toNat + row) % 32, ?_, ?_⟩
  · unfold Display.OnScreen
    omega
  · have hrows : ((s.row.toNat + row : Int) % 32 - s.row.toNat) % 32 = row := by omega
    have hcolumns : ((s.column.toNat + column : Int) % 64 - s.column.toNat) % 64 = column := by
      omega
    unfold Sprite.covers
    simp only [hrows, hcolumns, Int.toNat_natCast, hbit]
    simp only [Bool.and_true, Bool.and_eq_true, decide_eq_true_eq]
    omega

/-! ## All strokes -/

/-- Drawing on any machine that was reached:

* strokes are all completed and leave memory alone, and in another order they leave the
  same pixels;
* two strokes of one sprite can be left out, wherever they stand;
* of two strokes of one sprite, one right after the other, the first sets the flag exactly
  if the sprite covers a lit pixel, and the second exactly if it covered an unlit one
  before the first. So a sprite that has a set bit at all is reported at least once. -/
theorem strokes_commute_and_cancel (hm : m.Reachable) :
    (∀ l l' : List Stroke, l.Perm l' →
      ((m.strokeAll l).fault = none ∧ (m.strokeAll l).machine.memory = m.memory) ∧
        (m.strokeAll l).machine.display.pixels.size = 2048 ∧
        (m.strokeAll l).machine.display.pixels = (m.strokeAll l').machine.display.pixels) ∧
    (∀ before between after : List Stroke, ∀ s s' : Stroke, s.toSprite = s'.toSprite →
      (m.strokeAll (before ++ s :: between ++ s' :: after)).machine.display.pixels =
        (m.strokeAll (before ++ between ++ after)).machine.display.pixels) ∧
    (∀ s s' : Stroke, s.toSprite = s'.toSprite →
      let first := m.stroke s
      let second := first.machine.stroke s'
      (first.fault = none ∧ second.fault = none) ∧
        ((first.machine.reg flagRegister = 0 ∨ first.machine.reg flagRegister = 1) ∧
          (first.machine.reg flagRegister = 1 ↔ m.MeetsPixel s.toSprite true)) ∧
        ((second.machine.reg flagRegister = 0 ∨ second.machine.reg flagRegister = 1) ∧
          (second.machine.reg flagRegister = 1 ↔ m.MeetsPixel s.toSprite false)) ∧
        (∀ row column : Nat, row < s.height.val → column < 8 →
          (m.memory.byteAt (s.index + row)).toNat.testBit (7 - column) = true →
            first.machine.reg flagRegister = 1 ∨ second.machine.reg flagRegister = 1)) := by
  have hdrawable := hm.bounded.drawable
  refine ⟨?_, ?_, ?_⟩
  · intro l l' hperm
    obtain ⟨left, hleft, hstill, hmemory, -⟩ := hdrawable.strokeAll l
    have hpixels := hdrawable.strokeAll_pixels_eq fun px py => covered_perm m.memory px py hperm
    rw [hleft] at hpixels ⊢
    exact ⟨⟨rfl, hmemory⟩, hstill.display.area, hpixels⟩
  · intro before between after s s' hsame
    apply hdrawable.strokeAll_pixels_eq
    intro px py
    -- Brought to the front, the two strokes are one after the other.
    have hfront : (before ++ s :: between ++ s' :: after).Perm
        (s :: s' :: (before ++ between ++ after)) := by
      have hsecond : (before ++ s :: between ++ s' :: after).Perm
          (s' :: (before ++ s :: between ++ after)) := List.perm_middle
      have hfirst : (before ++ s :: between ++ after).Perm
          (s :: (before ++ between ++ after)) := by
        rw [List.append_assoc, List.append_assoc]
        exact List.perm_middle
      exact (hsecond.trans (hfirst.cons s')).trans (.swap s s' _)
    rw [covered_perm m.memory px py hfront, covered_twice m.memory px py hsame]
  · intro s s' hsame first second
    -- The second stroke is made on what the first one left.
    obtain ⟨one, hone, hleft, hmemory, hdraws⟩ := hdrawable.stroke s
    obtain ⟨two, htwo, -, -, hagain⟩ := hleft.stroke s'
    have hfirst : first = one.finish := hone
    have hsecond : second = two.finish := by
      show first.machine.stroke s' = two.finish
      rw [hfirst]
      exact htwo
    have hlit : one.reg flagRegister = 1 ↔ m.MeetsPixel s.toSprite true :=
      hdraws.flag_eq_one_iff.trans meets_poised_iff
    have hunlit : two.reg flagRegister = 1 ↔ m.MeetsPixel s.toSprite false := by
      rw [hagain.flag_eq_one_iff, meets_poised_iff, ← hsame]
      exact hdraws.meetsPixel_iff
    rw [hfirst, hsecond]
    refine ⟨⟨rfl, rfl⟩, ⟨hdraws.flag_cases, hlit⟩, ⟨hagain.flag_cases, hunlit⟩, ?_⟩
    intro row column hrow hcolumn hbit
    obtain ⟨px, py, hscreen, hcovers⟩ := exists_covers m.memory s.toSprite hrow hcolumn hbit
    -- The pixel was lit, and so the first stroke met it, or it is lit by the time of the
    -- second.
    cases hpixel : m.display.lit px py with
    | true => exact .inl (hlit.mpr ⟨px, py, hscreen, hcovers, hpixel⟩)
    | false => exact .inr (hunlit.mpr ⟨px, py, hscreen, hcovers, hpixel⟩)

/-- The digit `0` in the lower right corner, from where it goes around both edges. -/
def zeroInCorner : Stroke where
  index := 0x50
  column := 62
  row := 30
  height := ⟨5, by decide⟩
  index_nonneg := by decide
  fits := by decide
  x := ⟨0, by decide⟩
  y := ⟨1, by decide⟩
  x_ne := by decide
  y_ne := by decide
  agree h := absurd h (by decide)

/-- The same digit in the same place, by way of other registers. -/
def zeroAgain : Stroke :=
  { zeroInCorner with
    x := ⟨7, by decide⟩
    y := ⟨3, by decide⟩
    x_ne := by decide
    y_ne := by decide
    agree := fun h => absurd h (by decide) }

/-- The digit `1`, which lies across the digit `0`. -/
def oneInCorner : Stroke :=
  { zeroInCorner with
    index := 0x55
    index_nonneg := by decide
    fits := by decide }

/-- On a blank picture the digit `0` is taken off again through the digit `1`. Drawn twice
in a row, it meets nothing at first, and then itself. -/
theorem aboutToDraw_cancels :
    (aboutToDraw.strokeAll [zeroInCorner, oneInCorner, zeroAgain]).machine.display.pixels =
        (aboutToDraw.strokeAll [oneInCorner]).machine.display.pixels ∧
      (aboutToDraw.stroke zeroInCorner).machine.reg flagRegister = 0 ∧
      ((aboutToDraw.stroke zeroInCorner).machine.stroke zeroAgain).machine.reg flagRegister =
        1 := by
  obtain ⟨-, -, hblank, hstands⟩ := aboutToDraw_stands
  obtain ⟨-, hcancel, htwice⟩ := strokes_commute_and_cancel hstands.reachable
  obtain ⟨-, ⟨hcases, hlit⟩, -, hbits⟩ := htwice zeroInCorner zeroAgain rfl
  have hmissed : ¬ aboutToDraw.MeetsPixel zeroInCorner.toSprite true := by
    rintro ⟨px, py, -, -, hon⟩
    rw [hblank px py] at hon
    cases hon
  have hzero : (aboutToDraw.stroke zeroInCorner).machine.reg flagRegister ≠ 1 :=
    mt hlit.mp hmissed
  -- The second row of the digit begins with a set bit.
  have hbit : (aboutToDraw.memory.byteAt (zeroInCorner.index + (1 : Nat))).toNat.testBit (7 - 0) =
      true := by
    have hrow : zeroInCorner.index + (1 : Nat) = 0x51 := rfl
    rw [hrow, aboutToDraw_row]
    decide
  have hpixels := hcancel [] [oneInCorner] [] zeroInCorner zeroAgain rfl
  simp only [List.nil_append, List.cons_append, List.append_nil] at hpixels
  refine ⟨hpixels, ?_, ?_⟩
  · exact hcases.resolve_right hzero
  · have hreported := hbits 1 0 (by decide) (by decide) hbit
    exact hreported.resolve_left hzero

end Machine

end Chip8
