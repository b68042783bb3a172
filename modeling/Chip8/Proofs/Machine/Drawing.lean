import Chip8.Proofs.Machine.Counter
import Chip8.Proofs.Machine.Reset

/-!
# Chip8.Proofs.Machine.Drawing — a sprite, pixel by pixel

`drawRows` turns pixels over one after the other, row by row and column by column.
What comes of it is said here of each pixel at once, by its column and its row:

* `Machine.spriteBit` — the bit of the sprite that comes to lie on a pixel, if one
  does. Both offsets go around the edges.
* `Machine.Draws` — the picture has changed where these bits are set, the flag says
  whether one of the pixels was lit, and nothing else is new.

`draws_in_closed_form` says this of every sprite whose rows lie in memory. The
position is read before the flag is cleared, so it may well stand in the flag.
-/

namespace Chip8

/-- A column and a row of the picture. -/
def Display.OnScreen (px py : Int) : Prop := 0 ≤ px ∧ px < 64 ∧ 0 ≤ py ∧ py < 32

namespace Machine

variable {m m' : Machine} {x y : Register} {height : Fin 16} {px py : Int}

/-- Whether a sprite of `n` rows, drawn at the position of two registers, has a set bit
on the pixel in column `px` and row `py`. -/
def spriteBit (m : Machine) (x y : Register) (n : Nat) (px py : Int) : Bool :=
  let row := (py - (m.reg y).toNat) % 32
  let column := (px - (m.reg x).toNat) % 64
  row < n && column < 8 && (m.memory.byteAt (m.i + row)).toNat.testBit (7 - column.toNat)

/-- The machine `m'` is what drawing a sprite of `n` rows at the position of two
registers makes of `m`, but for the counter, the timers and the word in progress. -/
structure Draws (m : Machine) (x y : Register) (n : Nat) (m' : Machine) : Prop where
  pixels : ∀ px py, Display.OnScreen px py →
    m'.display.lit px py = (m.display.lit px py ^^ m.spriteBit x y n px py)
  hit : (∃ px py, Display.OnScreen px py ∧ m.spriteBit x y n px py = true ∧
    m.display.lit px py = true) → m'.reg flagRegister = 1
  miss : (∀ px py, Display.OnScreen px py → m.spriteBit x y n px py = true →
    m.display.lit px py = false) → m'.reg flagRegister = 0
  changed : m'.display.changed = true
  registers : ∀ r ≠ flagRegister, m'.reg r = m.reg r
  index : m'.i = m.i
  memory : m'.memory = m.memory
  stack : m'.stack = m.stack

/-! ## Places and pixels -/

/-- The place of a pixel on the screen. -/
theorem location_onScreen (hm : m.Bounded) (h : Display.OnScreen px py) :
    (m.display.location px py : Int) = py * 64 + px := by
  obtain ⟨hleft, hright, htop, hbottom⟩ := h
  have hlocation := hm.display.location_eq px py
  omega

/-- Each place of the picture is that of a pixel on the screen. -/
theorem exists_onScreen (hm : m.Bounded) {p : Nat} (hp : p < m.display.area) :
    ∃ px py, Display.OnScreen px py ∧ m.display.location px py = p := by
  have harea := hm.display.area
  have hscreen : Display.OnScreen (p % 64) (p / 64) := by
    unfold Display.OnScreen
    omega
  have hlocation := location_onScreen hm hscreen
  exact ⟨p % 64, p / 64, hscreen, by omega⟩

section

variable (hm : m.Bounded) (hfits : ¬ m.Overreaches (.draw x y height))
include hm hfits

/-- A sprite whose rows lie in memory selects the places of its set bits. -/
theorem spriteOf_location (h : Display.OnScreen px py) :
    m.spriteOf x y height.val (m.display.location px py) =
      m.spriteBit x y height.val px py := by
  have hplace := location_onScreen hm h
  have hsize := hm.memory_size
  have hi := hm.i
  obtain ⟨hleft, hright, htop, hbottom⟩ := h
  have hrow : Display.rowOffset (m.reg y).toNat (m.display.location px py) =
      (py - (m.reg y).toNat) % 32 := by
    unfold Display.rowOffset
    omega
  have hcolumn : Display.columnOffset (m.reg x).toNat (m.display.location px py) =
      (px - (m.reg x).toNat) % 64 := by
    unfold Display.columnOffset
    omega
  simp only [spriteOf, spriteMask, spriteBit, hrow, hcolumn]
  by_cases hin : (py - (m.reg y).toNat) % 32 < height.val
  · -- A row of the sprite is in memory, since its last one is.
    have hholds : m.memory.Holds (m.i + (py - (m.reg y).toNat) % 32) := by
      unfold Overreaches at hfits
      rw [Memory.holds_iff]
      omega
    simp only [hholds, decide_true, Bool.and_true]
  · simp only [hin, decide_false, Bool.false_and]

/-- A sprite hits a lit pixel exactly if a set bit comes to lie on one. -/
theorem hits_spriteOf_iff :
    m.display.hits (m.spriteOf x y height.val) = true ↔
      ∃ px py, Display.OnScreen px py ∧ m.spriteBit x y height.val px py = true ∧
        m.display.lit px py = true := by
  rw [Display.hits_eq_true_iff]
  constructor
  · -- The place of a lit pixel that is hit is that of a pixel on the screen.
    rintro ⟨p, hp, hmask, hlit⟩
    obtain ⟨px, py, hscreen, rfl⟩ := exists_onScreen hm hp
    rw [spriteOf_location hm hfits hscreen] at hmask
    exact ⟨px, py, hscreen, hmask, hlit⟩
  · rintro ⟨px, py, hscreen, hbit, hlit⟩
    have hlocation := location_onScreen hm hscreen
    have harea := hm.display.area
    obtain ⟨hleft, hright, htop, hbottom⟩ := hscreen
    refine ⟨m.display.location px py, by omega, ?_, hlit⟩
    rw [spriteOf_location hm hfits ⟨hleft, hright, htop, hbottom⟩]
    exact hbit

/-- Whatever leaves the parts that the tables list has drawn the sprite. -/
theorem draws_of_parts (hdisplay : m'.display = m.displayAfter (.draw x y height))
    (hregisters : ∀ r, m'.reg r = m.registerAfter (.draw x y height) r)
    (hindex : m'.i = m.i) (hmemory : m'.memory = m.memory) (hstack : m'.stack = m.stack) :
    m.Draws x y height.val m' := by
  have hflag : m'.reg flagRegister =
      flagOf (m.display.hits (m.spriteOf x y height.val) = true) := by
    rw [hregisters, registerAfter, regWith, if_pos rfl]
  constructor
  case pixels =>
    intro px py hscreen
    -- A pixel on the screen has a place, at which the picture was overlaid.
    have hlocation := location_onScreen hm hscreen
    have harea := hm.display.area
    have hplace : m.display.location px py < m.display.area := by
      obtain ⟨hleft, hright, htop, hbottom⟩ := hscreen
      omega
    rw [hdisplay, ← spriteOf_location hm hfits hscreen]
    exact Display.getD_overlay hplace
  case hit =>
    intro hlit
    rw [hflag]
    exact if_pos ((hits_spriteOf_iff hm hfits).mpr hlit)
  case miss =>
    intro hunlit
    rw [hflag]
    refine if_neg (mt (hits_spriteOf_iff hm hfits).mp ?_)
    -- A set bit on a lit pixel would have been a hit.
    rintro ⟨px, py, hscreen, hbit, hlit⟩
    rw [hunlit px py hscreen hbit] at hlit
    cases hlit
  case changed =>
    rw [hdisplay]
    rfl
  case registers =>
    intro r hr
    rw [hregisters]
    exact if_neg hr
  case index => exact hindex
  case memory => exact hmemory
  case stack => exact hstack

/-- An instruction that draws is completed, and draws. -/
theorem exec_draws : m.Draws x y height.val (m.exec (.draw x y height)).machine := by
  have hleft := exec_machine_eq hm hfits
  refine draws_of_parts hm hfits ?_ (exec_reg hm hfits) ?_ ?_ ?_
  · rw [hleft]
  · rw [hleft]
    rfl
  · rw [hleft]
    rfl
  · rw [hleft]
    rfl

/-- A step on a word that draws is completed, and draws. -/
theorem step_draws (hpc : m.pc ≤ 0xFFE)
    (hi : (Instruction.draw x y height).EncodedBy (m.wordAt m.pc)) :
    m.step.fault = none ∧ m.Draws x y height.val m.step.machine := by
  rw [step_eq_stepped hm hpc hi hfits]
  exact ⟨rfl, draws_of_parts hm hfits rfl (m.reg_stepped _) rfl rfl rfl⟩

end

/-! ## A sprite at the position of the flag -/

/-- Sets the flag, and the index to the picture of the digit `0`. -/
def drawing : Array UInt8 := #[0x6F, 0x1F, 0xA0, 0x50]

/-- The machine that is about to draw. -/
def aboutToDraw : Machine := (programmed drawing).performAll [.step, .step]

/-- Setting a register and then the index leaves the picture alone. -/
theorem StandsIn.sets {program : Array UInt8} {a : Int} {calls : List Int} {byte : UInt8}
    {target : Fin 4096} (h : StandsIn program a calls m) (ha : a + 2 ≤ 0xFFE)
    (hset : (Instruction.loadByte x byte).EncodedBy ((programmed program).wordAt a))
    (hpoint : (Instruction.loadIndex target).EncodedBy ((programmed program).wordAt (a + 2))) :
    let m' := m.step.machine.step.machine
    m'.reg x = byte ∧ m'.i = target.val ∧ m'.display = m.display ∧
      StandsIn program (a + 2 + 2) calls m' := by
  have hfirst : (Instruction.loadByte x byte).EncodedBy (m.wordAt m.pc) := by
    rw [h.pc, wordAt_congr h.memory]
    exact hset
  obtain ⟨hloaded, -, hnext⟩ := h.step (by omega) hset id rfl
  have hpc : m.following (.loadByte x byte) = a + 2 := congrArg (· + 2) h.pc
  have hcalls : m.callsAfter (.loadByte x byte) = calls := h.calls
  rw [hpc, hcalls] at hnext
  have hsecond : (Instruction.loadIndex target).EncodedBy
      (m.step.machine.wordAt m.step.machine.pc) := by
    rw [hnext.pc, wordAt_congr hnext.memory]
    exact hpoint
  obtain ⟨hpointed, -, -⟩ := hnext.step (by omega) hpoint id rfl
  obtain ⟨hindex, hlast⟩ := hnext.loadIndex target ha hpoint
  have hleft := h.reachable.bounded.step_machine_eq hfirst hloaded
  have hleft' := hnext.reachable.bounded.step_machine_eq hsecond hpointed
  -- The first step sets the register, and the second one does not touch it.
  refine ⟨?_, hindex, ?_, hlast⟩
  · rw [hleft', reg_stepped]
    show m.step.machine.reg x = byte
    rw [hleft, reg_stepped]
    exact if_pos rfl
  · rw [hleft', stepped_display]
    show m.step.machine.display = m.display
    rw [hleft, stepped_display]
    rfl

/-- The position stands in the flag, and nothing was drawn yet. -/
theorem aboutToDraw_stands :
    aboutToDraw.reg 15 = 31 ∧ aboutToDraw.i = 0x50 ∧
      (∀ px py, aboutToDraw.display.lit px py = false) ∧ StandsIn drawing 0x204 [] aboutToDraw := by
  have hroom : drawing.size ≤ programRoom := by decide
  have hset : (Instruction.loadByte 15 31).EncodedBy ((programmed drawing).wordAt 0x200) :=
    wordAt_programmed (k := 0) hroom rfl rfl
  have hpoint : (Instruction.loadIndex 0x50).EncodedBy
      ((programmed drawing).wordAt (0x200 + 2)) :=
    wordAt_programmed (k := 2) hroom rfl rfl
  have hblank : (programmed drawing).display = .blank displayWidth displayHeight := by
    rw [programmed_eq hroom]
    rfl
  have htarget : ((0x50 : Fin 4096).val : Int) = 0x50 := rfl
  have hnext : (0x200 : Int) + 2 + 2 = 0x204 := rfl
  obtain ⟨hflag, hindex, hstill, hleft⟩ := (standsIn_programmed hroom).sets (by decide) hset hpoint
  rw [htarget] at hindex
  rw [hnext] at hleft
  rw [hblank] at hstill
  rw [aboutToDraw, performAll_step, performAll_step, performAll_nil]
  refine ⟨hflag, hindex, fun px py => ?_, hleft⟩
  rw [hstill]
  exact Display.lit_blank _ _ px py

/-- The second row of the digit `0`. -/
theorem aboutToDraw_row : aboutToDraw.memory.byteAt 0x51 = 0x90 := by
  have hroom : drawing.size ≤ programRoom := by decide
  have hholds : freshMemory.Holds 0x51 := by
    have hsize := (Bounded.fresh (.ofList [])).memory_size
    rw [Memory.holds_iff]
    show 0 ≤ (0x51 : Int) ∧ (0x51 : Int) < ((Machine.fresh (.ofList [])).memory.size : Int)
    omega
  have hlow : ¬ ((programStart : Nat) : Int) ≤ 0x51 := by decide
  obtain ⟨-, -, -, hstands⟩ := aboutToDraw_stands
  rw [hstands.memory, programmed_eq hroom]
  show (freshMemory.storing programStart drawing.toList).byteAt 0x51 = 0x90
  rw [Memory.byteAt_storing _ hholds, if_neg hlow, byteAt_freshMemory (by decide) (by decide)]
  decide

/-! ## All sprites -/

/-- A sprite whose rows lie in memory is drawn as a whole, be it carried out on its own or
in a step: a pixel has changed exactly if a set bit comes to lie on it, the flag is one
if such a pixel was lit and else zero, the picture is marked as changed, and memory, the
index, the open calls and the other registers are as they were. -/
theorem draws_in_closed_form (h : m.Reachable) (x y : Register) (height : Fin 16)
    (hrows : height.val = 0 ∨ m.i + height.val - 1 ≤ 0xFFF) :
    ((m.exec (.draw x y height)).fault = none ∧
        m.Draws x y height.val (m.exec (.draw x y height)).machine) ∧
      (m.pc ≤ 0xFFE → (Instruction.draw x y height).EncodedBy (m.wordAt m.pc) →
        m.step.fault = none ∧ m.Draws x y height.val m.step.machine) := by
  have hm := h.bounded
  -- A sprite without rows needs no place at all.
  have hfits : ¬ m.Overreaches (.draw x y height) := by
    unfold Overreaches
    omega
  exact ⟨⟨exec_of_fits hm hfits, exec_draws hm hfits⟩, fun hpc hi => step_draws hm hfits hpc hi⟩

/-- A digit that is drawn from the last row on goes on in the first. The position is that
of the flag before it was cleared, and the flag stays clear. -/
theorem aboutToDraw_goes_around :
    (aboutToDraw.exec (.draw 15 15 5)).machine.display.lit 31 0 = true ∧
      (aboutToDraw.exec (.draw 15 15 5)).machine.display.lit 32 0 = false ∧
      (aboutToDraw.exec (.draw 15 15 5)).machine.reg flagRegister = 0 := by
  obtain ⟨hflag, hindex, hblank, hstands⟩ := aboutToDraw_stands
  have hrow := aboutToDraw_row
  obtain ⟨⟨-, hdraws⟩, -⟩ := draws_in_closed_form hstands.reachable 15 15 5
    (.inr (by rw [hindex]; decide))
  -- The first row of the picture is the second row of the digit.
  have haddress : (0x50 : Int) + (0 - ((31 : UInt8).toNat : Int)) % 32 = 0x51 := by decide
  have hbit (px : Int) : aboutToDraw.spriteBit 15 15 5 px 0 =
      ((px - ((31 : UInt8).toNat : Int)) % 64 < 8 &&
        (0x90 : UInt8).toNat.testBit (7 - ((px - ((31 : UInt8).toNat : Int)) % 64).toNat)) := by
    simp only [spriteBit, hflag, hindex, haddress, hrow]
    rfl
  have hlit (px : Int) (hpx : 0 ≤ px ∧ px < 64) :
      (aboutToDraw.exec (.draw 15 15 5)).machine.display.lit px 0 =
        aboutToDraw.spriteBit 15 15 5 px 0 := by
    rw [← Bool.false_xor (aboutToDraw.spriteBit 15 15 5 px 0), ← hblank px 0]
    exact hdraws.pixels px 0 ⟨hpx.1, hpx.2, by decide, by decide⟩
  refine ⟨?_, ?_, hdraws.miss fun px py _ _ => hblank px py⟩
  · rw [hlit 31 (by decide), hbit]
    decide
  · rw [hlit 32 (by decide), hbit]
    decide

end Machine

end Chip8
