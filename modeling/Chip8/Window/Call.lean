import Chip8.Value

/-!
# Chip8.Window.Call — what is asked of a window system

The calls that the emulator makes on a window system and its mixer, in its own
words. Their order is what the window system sees of the emulator.
-/

namespace Chip8.Window

/-- A colour in red, green and blue. -/
structure Colour where
  red : UInt8
  green : UInt8
  blue : UInt8
deriving DecidableEq, Repr

/-- A call on the window system. -/
inductive Call where
  | openDisplay
  | closeDisplay
  | caption (title : Value)
  /-- Make the window this wide and high, with so many bits for a pixel. -/
  | setMode (width height : Figure) (flags depth : Nat)
  /-- Draw without transparency. -/
  | opaqueSurface
  /-- Make an image of this width and height from its pixels. -/
  | image (width height : Nat) (pixels : Array Colour)
  /-- Double the image with smoothed edges. -/
  | smooth
  /-- Stretch the image to this size. -/
  | stretch (width height : Figure)
  /-- Put the image into the window at this position. -/
  | put (x y : Nat)
  /-- Show what was put into the window. -/
  | flip
  /-- Ask for this kind of mixer: samples in a second, bits in a sample,
  channels, samples in a buffer, and which changes are allowed. -/
  | requestMixer (frequency bits channels buffer changes : Nat)
  | openMixer
  | closeMixer
  /-- Make a sound from samples. -/
  | sound (samples : List UInt8)
  /-- Set the volume of the sound, in percent. -/
  | setVolume (percent : Nat)
  /-- Play the sound over and over, for so many milliseconds. -/
  | play (loops : Int) (milliseconds : Nat)
  | stop
deriving Repr

end Chip8.Window
