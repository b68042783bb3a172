import Chip8.KeyMap
import Chip8.Value

/-!
# Chip8.Headless — no screen, no keys, no sound

The front end for runs that nobody watches. It counts what it is asked to show
and to sound, and no key is ever held.
-/

namespace Chip8.Headless

/-- A screen that shows nothing. -/
structure Screen where
  /-- The scale that was asked for, which does not matter here. -/
  scale : Value
  /-- How many pictures were drawn. -/
  frames : Nat
  /-- The last title, or nothing. -/
  title : Value
deriving Repr

/-- Nothing was drawn yet. The scale is one unless another is given. -/
def Screen.start (scale : Value) : Screen :=
  ⟨if scale.kind = .nothing then .whole 1 else scale, 0, .nothing⟩

def Screen.draw (s : Screen) : Screen := { s with frames := s.frames + 1 }

def Screen.setTitle (s : Screen) (title : Value) : Screen := { s with title := title }

/-- Keys that nobody presses. -/
structure Keys where
  map : KeyMap
  held : Keypad

/-- No key is held. -/
def Keys.start (map : KeyMap) : Keys := ⟨map, .released⟩

/-- Notes a key as held or not. -/
def Keys.latch (k : Keys) (key : Key) (down : Bool) : Keys :=
  { k with held := Key.assign k.held key down }

/-- Lets every key go. -/
def Keys.release (k : Keys) : Keys := { k with held := .released }

/-- A sound that nobody hears: the count of beeps. -/
structure Sound where
  beeps : Nat
deriving DecidableEq, Repr

def Sound.silent : Sound := ⟨0⟩

def Sound.beep (s : Sound) : Sound := ⟨s.beeps + 1⟩

end Chip8.Headless
