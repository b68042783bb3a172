import Chip8.KeyMap

/-!
# Chip8.Window.Keys — keys of a window

A window reports when a key goes down and when it comes up, so the keypad simply
follows the events: the last one about a key decides. When the window loses the
focus, every key is let go, since its coming up is reported elsewhere.

Closing the window, or letting ESC go, is the wish to quit. Events that come
after it in the same batch still count.
-/

namespace Chip8.Window

/-- What a window reports. -/
inductive Event where
  | keyDown (code : Int)
  | keyUp (code : Int)
  | quit
  | focusLost
  /-- Anything else, with the code of a key if it comes with one. -/
  | other (code : Option Int)
deriving DecidableEq, Repr

/-- The code of the key ESC. -/
def escape : Int := 27

/-- The keys of a window. -/
structure Keys where
  map : KeyMap
  /-- Which keys are held. -/
  held : Keypad

namespace Keys

/-- No key is held yet. -/
def start (map : KeyMap) : Keys := ⟨map, .released⟩

/-- Notes a key as held or not. -/
def latch (k : Keys) (key : Key) (down : Bool) : Keys :=
  { k with held := Key.assign k.held key down }

/-- Lets every key go. -/
def release (k : Keys) : Keys := { k with held := .released }

/-- Notes the key that a code belongs to, if it belongs to one. -/
def latchCode (k : Keys) (code : Int) (down : Bool) : Keys :=
  match k.map.key? code with
  | some key => k.latch key down
  | none => k

/-- Whether an event is the wish to quit. -/
def isQuit (event : Event) : Bool := event == .quit || event == .keyUp escape

/-- Follows one event. -/
def follow (k : Keys) : Event → Keys
  | .keyDown code => k.latchCode code true
  | .keyUp code => if code = escape then k else k.latchCode code false
  | .focusLost => k.release
  | .quit | .other _ => k

/-- Follows a batch of events and says whether one of them was the wish to quit. -/
def pump (k : Keys) (batch : List Event) : Keys × Bool :=
  (batch.foldl follow k, batch.any isQuit)

end Keys

end Chip8.Window
