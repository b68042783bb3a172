import Chip8.Terminal.KeyReader
import Chip8.Time

/-!
# Chip8.Terminal.Keys — held keys, guessed from typed characters

A terminal never says when a key is let go. So a key counts as held until a
deadline, a short time after its character was last seen; a keyboard that
repeats the character keeps pushing the deadline back.

* `pump` takes everything from the queue at a moment and sets the deadlines. It
  stops at the wish to quit, and says whether it met one.
* `states` tells which deadlines lie ahead of a moment.
* `release` lets every key go.
-/

namespace Chip8.Terminal

/-- How long a key counts as held after its character was seen. -/
def holdTime {τ : Type} [Time τ] : τ := Time.fraction 1 5

/-- How many typed keys may wait. -/
def queueCapacity : Nat := 16

/-- The keys of a terminal. -/
structure Keys (τ : Type) where
  map : KeyMap
  /-- Until when each key counts as held. -/
  deadlines : Vector τ 16
  /-- Which keys were held when last asked. -/
  held : Keypad
  queue : KeyQueue
  /-- Whether the reader has been told to stop. -/
  stopped : Bool

namespace Keys

variable {τ : Type} [Time τ]

/-- Deadlines that have passed at any moment after zero. -/
def noDeadlines : Vector τ 16 := Vector.replicate 16 Time.zero

/-- Lets a new reader read characters. One that runs out of them is told to
stop. -/
def type (k : Keys τ) (chars : List Int) : Keys τ :=
  let progress := KeyReader.run k.map k.queue chars
  { k with queue := progress.queue, stopped := progress.state == .reading }

/-- The keys of a terminal at which these characters are typed. -/
def start (map : KeyMap) (chars : List Int) : Keys τ :=
  Keys.type ⟨map, noDeadlines, .released, .empty queueCapacity, false⟩ chars

/-- Takes typed keys and pushes their deadlines to `deadline`, up to the wish to
quit. Gives the deadlines, what is left, and whether there was such a wish. -/
def drain (deadline : τ) (deadlines : Vector τ 16) :
    List Typed → Vector τ 16 × List Typed × Bool
  | [] => (deadlines, [], false)
  | .quit :: rest => (deadlines, rest, true)
  | .key key :: rest => drain deadline (Key.assign deadlines key deadline) rest

/-- Takes what was typed up to the moment `now`, and says whether the user wants
to quit. -/
def pump (k : Keys τ) (now : τ) : Keys τ × Bool :=
  let (deadlines, items, quit) :=
    drain (Time.add now holdTime) k.deadlines k.queue.items
  ({ k with deadlines := deadlines, queue := { k.queue with items := items } }, quit)

/-- Tells which keys are held at the moment `now`. -/
def states (k : Keys τ) (now : τ) : Keys τ × Keypad :=
  let held := k.deadlines.map (Time.lt now ·)
  ({ k with held := held }, held)

/-- Lets every key go. -/
def release (k : Keys τ) : Keys τ :=
  { k with deadlines := noDeadlines, held := .released }

/-- Notes a key as held or not. -/
def latch (k : Keys τ) (key : Key) (down : Bool) : Keys τ :=
  { k with held := Key.assign k.held key down }

/-- Tells the reader to stop. -/
def close (k : Keys τ) : Keys τ := { k with stopped := true }

end Keys

end Chip8.Terminal
