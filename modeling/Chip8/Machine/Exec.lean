import Chip8.Machine.Trace

/-!
# Chip8.Machine.Exec — carrying out an instruction

`Machine.exec` carries out one instruction on the state and moves the program
counter: by two, by four where a skip is taken, or to a new address. A wait for
a key leaves it alone while no key is held, so that the same instruction comes
round again.

An instruction that faults leaves behind what it did up to then (`Progress`):

* a sprite that runs out of memory has drawn its first rows and cleared `VF`;
* the three decimal digits are stored one by one;
* a block of registers is stored or loaded as a whole or not at all.

Carries, borrows and shifted bits go into `VF` before the result goes into
`VX`. Where `VX` or `VY` is `VF` itself, the result is therefore computed from
the flag.
-/

namespace Chip8

/-- What an operation leaves behind: the machine, and the fault that cut the
operation short, if one did. -/
structure Progress where
  machine : Machine
  fault : Option Fault

namespace Machine

/-- The operation was completed. -/
def finish (m : Machine) : Progress := ⟨m, none⟩

/-- The operation was cut short. -/
def halt (m : Machine) (fault : Fault) : Progress := ⟨m, some fault⟩

/-! ## Drawing -/

/-- Draws the rows of a sprite that lie in memory from `address` on, downwards
from column `x` and row `y`: as many as asked for, or up to the first that lies
outside memory. Says whether a lit pixel was turned off. -/
def drawRows (memory : Memory) (x y address : Int) :
    Nat → Display → Display × Bool × Option Fault
  | 0, d => (d, false, none)
  | n + 1, d =>
    match memory.read address with
    | .error fault => (d, false, some fault)
    | .ok bits =>
      let (d, hit) := d.drawRow x y bits
      let (d, later, fault) := drawRows memory x (y + 1) (address + 1) n d
      (d, hit || later, fault)

/-- Draws a sprite at the position that two registers give. -/
def drawSprite (m : Machine) (x y : Register) (height : Nat) : Progress :=
  let column := (m.reg x).toNat
  let row := (m.reg y).toNat
  -- The position is read before the flag is cleared, for either register may be `VF`.
  let m := m.setFlag 0
  match drawRows m.memory column row m.i height m.display with
  -- The rows that were drawn stay, without a mark on the picture and without a flag.
  | (d, _, some fault) => { m with display := d }.halt fault
  | (d, hit, none) => ({ m with display := d.touch }.setFlag hit.toUInt8).advance.finish

/-! ## Registers and memory -/

/-- The decimal digits of a byte, hundreds first. -/
def decimalDigits (byte : UInt8) : List UInt8 :=
  [byte / 100, byte / 10 % 10, byte % 10]

/-- Stores the decimal digits of a register. -/
def storeDecimalOf (m : Machine) (x : Register) : Progress :=
  match m.memory.writeEach m.i (decimalDigits (m.reg x)) with
  | (memory, some fault) => { m with memory := memory }.halt fault
  | (memory, none) => { m with memory := memory }.advance.finish

/-- Stores the registers from `V0` to `VX`. -/
def storeThrough (m : Machine) (x : Register) : Progress :=
  match m.memory.writeBlock m.i (m.v.toArray.extract 0 (x.val + 1)) with
  | .error fault => m.halt fault
  | .ok memory => { m with memory := memory }.advance.finish

/-- Loads the registers from `V0` to `VX` and moves the index register past the
bytes that were loaded. -/
def loadThrough (m : Machine) (x : Register) : Progress :=
  match m.memory.readBlock m.i (x.val + 1) with
  | .error fault => m.halt fault
  | .ok block =>
    -- The block has a byte for each of these registers, so the default is never used.
    let v := Vector.ofFn fun r : Register => if r ≤ x then block.getD r.val 0 else m.reg r
    { m with v := v, i := (m.i + x.val + 1) % 0x10000 }.advance.finish

/-! ## Calls and keys -/

/-- Opens a call and jumps. -/
def callTo (m : Machine) (target : Int) : Progress :=
  match m.stack.push m.pc with
  | .error fault => m.halt fault
  | .ok stack => { m with stack := stack, pc := target }.finish

/-- Closes the newest call and goes on after it. -/
def returnFromCall (m : Machine) : Progress :=
  match m.stack.pop with
  | .error fault => m.halt fault
  | .ok (address, stack) => { m with stack := stack, pc := address }.advance.finish

/-- Skips the next instruction if the key that a register names is held, or if
it is not, as `wanted` says. -/
def skipOnKey (m : Machine) (x : Register) (wanted : Bool) : Progress :=
  match m.keys.held? (m.reg x) with
  | none => m.halt (.noSuchKey (m.reg x))
  | some held => (m.skipIf (held == wanted)).finish

/-- Puts the lowest held key into a register, or stays where it is. -/
def waitForKey (m : Machine) (x : Register) : Progress :=
  match m.keys.lowestHeld? with
  -- The counter stays, so the same wait comes round again.
  | none => m.finish
  | some key => (m.setReg x (UInt8.ofNat key.val)).advance.finish

/-- Copies the delay timer into a register. -/
def readDelayInto (m : Machine) (x : Register) : Progress :=
  match m.putReg x m.delay with
  | .error fault => m.halt fault
  | .ok m => m.advance.finish

/-- Draws a random number and keeps the bits that `byte` selects. -/
def randomInto (m : Machine) (x : Register) (byte : UInt8) : Progress :=
  let (number, random) := m.random.draw
  ({ m with random := random }.setReg x (UInt8.ofInt number &&& byte)).advance.finish

/-! ## Arithmetic -/

/-- Sets the flag, then combines two registers into the first. -/
def combine (m : Machine) (flag : UInt8) (x y : Register) (f : UInt8 → UInt8 → UInt8) : Machine :=
  let m := m.setFlag flag
  (m.setReg x (f (m.reg x) (m.reg y))).advance

/-- Sets the flag, then changes a register. -/
def change (m : Machine) (flag : UInt8) (x : Register) (f : UInt8 → UInt8) : Machine :=
  let m := m.setFlag flag
  (m.setReg x (f (m.reg x))).advance

/-- Carries out one instruction. -/
def exec (m : Machine) : Instruction → Progress
  | .clear => { m with display := m.display.clear }.advance.finish
  | .ret => m.returnFromCall
  | .jump target => { m with pc := target.val }.finish
  | .call target => m.callTo target.val
  | .skipEqByte x byte => (m.skipIf (m.reg x == byte)).finish
  | .skipNeByte x byte => (m.skipIf (m.reg x != byte)).finish
  | .skipEq x y => (m.skipIf (m.reg x == m.reg y)).finish
  | .skipNe x y => (m.skipIf (m.reg x != m.reg y)).finish
  | .loadByte x byte => (m.setReg x byte).advance.finish
  | .addByte x byte => (m.setReg x (m.reg x + byte)).advance.finish
  | .load x y => (m.setReg x (m.reg y)).advance.finish
  | .or x y => (m.setReg x (m.reg x ||| m.reg y)).advance.finish
  | .and x y => (m.setReg x (m.reg x &&& m.reg y)).advance.finish
  | .xor x y => (m.setReg x (m.reg x ^^^ m.reg y)).advance.finish
  | .add x y =>
    (m.combine (decide (0xFF - m.reg x < m.reg y)).toUInt8 x y (· + ·)).finish
  | .sub x y => (m.combine (decide (m.reg y < m.reg x)).toUInt8 x y (· - ·)).finish
  | .subFrom x y =>
    (m.combine (decide (m.reg y < m.reg x)).toUInt8 x y fun a b => b - a).finish
  | .shiftRight x => (m.change (m.reg x &&& 1) x (· >>> 1)).finish
  | .shiftLeft x => (m.change (m.reg x &&& 0x80) x (· <<< 1)).finish
  | .loadIndex target => { m with i := target.val }.advance.finish
  | .jumpFrom target => { m with pc := target.val + (m.reg offsetRegister).toNat }.finish
  | .random x byte => m.randomInto x byte
  | .draw x y height => m.drawSprite x y height.val
  | .skipHeld x => m.skipOnKey x true
  | .skipNotHeld x => m.skipOnKey x false
  | .readDelay x => m.readDelayInto x
  | .waitKey x => m.waitForKey x
  | .setDelay x => { m with delay := (m.reg x).toNat }.advance.finish
  | .setSound x => { m with sound := (m.reg x).toNat }.advance.finish
  | .addIndex x => { m with i := (m.i + (m.reg x).toNat) % 0x10000 }.advance.finish
  | .loadGlyph x =>
    { m with i := fontStart + Font.glyphHeight * (m.reg x).toNat }.advance.finish
  | .storeDecimal x => m.storeDecimalOf x
  | .storeRegisters x => m.storeThrough x
  | .loadRegisters x => m.loadThrough x

end Machine

end Chip8
