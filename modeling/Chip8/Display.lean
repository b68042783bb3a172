import Chip8.Room

/-!
# Chip8.Display — the picture

A picture of lit and unlit pixels, row after row, with a mark that says whether
it has changed since it was last shown:

* `flip` — turns one pixel over and says whether it was lit.
* `clear` — unlights every pixel and marks the picture as changed; `reset` does
  the same and takes the mark away.
* `frame` — the picture as bytes, one for each pixel.

Coordinates wrap at the edges: only their floored remainders by width and
height count.
-/

namespace Chip8

/-- A picture of `width` by `height` pixels. -/
structure Display where
  width : Int
  height : Int
  /-- The pixels, row after row; `true` is lit. -/
  pixels : Array Bool
  /-- Whether the picture has changed since it was last shown. -/
  changed : Bool
deriving DecidableEq

namespace Display

/-- An unlit, unchanged picture. -/
def blank (width height : Int) : Display :=
  ⟨width, height, Array.replicate (width * height).toNat false, false⟩

/-- An unlit picture, if there is room for its pixels. -/
def ofSize (width height : Int) : Except RoomError Display :=
  (room (width * height)).map fun _ => blank width height

/-- How many pixels the picture has. -/
def area (d : Display) : Nat := d.pixels.size

/-- Where the pixel in column `x` and row `y` stands in the row after row
order, after both coordinates have wrapped. -/
def location (d : Display) (x y : Int) : Nat :=
  ((y.fmod d.height * d.width + x.fmod d.width) % (d.width * d.height)).toNat

/-- Whether the pixel in column `x` and row `y` is lit. -/
def lit (d : Display) (x y : Int) : Bool := d.pixels.getD (d.location x y) false

/-- Turns the pixel in column `x` and row `y` over, and says whether it was lit. -/
def flip (d : Display) (x y : Int) : Display × Bool :=
  let was := d.lit x y
  ({ d with pixels := d.pixels.modify (d.location x y) not }, was)

/-- `flip`, where the picture has a pixel at all. -/
def flip? (d : Display) (x y : Int) : Option (Display × Bool) :=
  if d.width = 0 ∨ d.height = 0 then none else some (d.flip x y)

/-- Unlights every pixel. -/
def unlit (d : Display) : Display :=
  { d with pixels := Array.replicate d.area false }

/-- Unlights every pixel and marks the picture as changed. -/
def clear (d : Display) : Display := { d.unlit with changed := true }

/-- Unlights every pixel and marks the picture as unchanged. -/
def reset (d : Display) : Display := { d.unlit with changed := false }

/-- Marks the picture as changed. -/
def touch (d : Display) : Display := { d with changed := true }

/-- Marks the picture as shown. -/
def settle (d : Display) : Display := { d with changed := false }

/-- The picture as bytes, one for each pixel: one if it is lit, else zero. -/
def frame (d : Display) : Array UInt8 := d.pixels.map fun on => if on then 1 else 0

/-- Turns over the pixels that `bits` selects, highest bit first, in the first
columns from `x` on, as many as asked for. Says whether one of them was lit. -/
def flipColumns (d : Display) (x y : Int) (bits : UInt8) : Nat → Display × Bool
  | 0 => (d, false)
  | n + 1 =>
    -- The columns on the left come first. The highest bit belongs to the first of them.
    let (left, hit) := d.flipColumns x y bits n
    if bits.toNat.testBit (7 - n) then
      let (d', was) := left.flip (x + n) y
      (d', hit || was)
    else (left, hit)

/-- Draws one row of a sprite, eight pixels wide, and says whether a lit pixel
was turned off. -/
def drawRow (d : Display) (x y : Int) (bits : UInt8) : Display × Bool :=
  d.flipColumns x y bits 8

end Display

end Chip8
