/-!
# Chip8.Font — pictures of the hexadecimal digits

Each digit is a picture five rows high and four pixels wide, one byte a row,
its leftmost pixel in the highest bit.
-/

namespace Chip8.Font

/-- How many rows a digit has. -/
def glyphHeight : Nat := 5

/-- The rows of the digits `0` to `F`, one digit after the other. -/
def glyphs : Array UInt8 := #[
  0xF0, 0x90, 0x90, 0x90, 0xF0,
  0x20, 0x60, 0x20, 0x20, 0x70,
  0xF0, 0x10, 0xF0, 0x80, 0xF0,
  0xF0, 0x10, 0xF0, 0x10, 0xF0,
  0x90, 0x90, 0xF0, 0x10, 0x10,
  0xF0, 0x80, 0xF0, 0x10, 0xF0,
  0xF0, 0x80, 0xF0, 0x90, 0xF0,
  0xF0, 0x10, 0x20, 0x40, 0x40,
  0xF0, 0x90, 0xF0, 0x90, 0xF0,
  0xF0, 0x90, 0xF0, 0x10, 0xF0,
  0xF0, 0x90, 0xF0, 0x90, 0x90,
  0xE0, 0x90, 0xE0, 0x90, 0xE0,
  0xF0, 0x80, 0x80, 0x80, 0xF0,
  0xE0, 0x90, 0x90, 0x90, 0xE0,
  0xF0, 0x80, 0xF0, 0x80, 0xF0,
  0xF0, 0x80, 0xF0, 0x80, 0x80]

/-- Sixteen digits of five rows each. -/
theorem size_glyphs : glyphs.size = 16 * glyphHeight := by decide

end Chip8.Font
