import Chip8.Keypad

/-!
# Chip8.KeyQueue — typed keys on their way to the machine

Keys that were typed wait in a queue until the emulator takes them. The queue
may have a bound: a key that is typed while the queue is full is lost, but the
wish to quit waits for a place.
-/

namespace Chip8

/-- What a typed character means. -/
inductive Typed where
  | key (key : Key)
  /-- The wish to quit. -/
  | quit
deriving DecidableEq, Repr

/-- Typed keys, the oldest first. -/
structure KeyQueue where
  /-- How many may wait; zero sets no bound. -/
  capacity : Nat
  items : List Typed
deriving DecidableEq, Repr

namespace KeyQueue

/-- Nothing waits. -/
def empty (capacity : Nat) : KeyQueue := ⟨capacity, []⟩

/-- Whether there is no place for another. -/
def isFull (q : KeyQueue) : Bool :=
  q.capacity != 0 && q.capacity ≤ q.items.length

/-- Lets one more wait. -/
def append (q : KeyQueue) (item : Typed) : KeyQueue :=
  { q with items := q.items ++ [item] }

/-- Lets a key wait, or loses it if there is no place. -/
def offer (q : KeyQueue) (key : Key) : KeyQueue :=
  if q.isFull then q else q.append (.key key)

/-- Takes the one that has waited longest. -/
def take? (q : KeyQueue) : Option (Typed × KeyQueue) :=
  match q.items with
  | [] => none
  | item :: rest => some (item, { q with items := rest })

end KeyQueue

end Chip8
