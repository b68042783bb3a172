import Chip8.KeyMap
import Chip8.KeyQueue

/-!
# Chip8.Terminal.KeyReader — reading typed characters

A terminal only tells which characters are typed. The reader takes them one by
one and queues the keys they stand for:

* `read` is its step for one character. A character of the key map queues its
  key; ESC and CTRL+C make the reader leave; a negative number says that there
  was no character.
* `leave` is its step when it wants to leave: it queues the wish to quit as soon
  as there is a place, and is done.

The emulator may take from the queue between any two steps. `run` lets the
reader go on alone, until it is done, has to wait for a place, or has no more
characters.
-/

namespace Chip8.Terminal.KeyReader

/-- What the reader does next. -/
inductive State where
  /-- It waits for a character. -/
  | reading
  /-- It has read that the user wants to quit and waits for a place in the queue. -/
  | leaving
  /-- It has left. -/
  | done
deriving DecidableEq, Repr

/-- ESC and CTRL+C. -/
def isQuit (char : Int) : Bool := char == 27 || char == 3

/-- Reads one character. -/
def read (map : KeyMap) (q : KeyQueue) (char : Int) : KeyQueue × State :=
  if char < 0 then (q, .reading)
  else
    let code := KeyMap.smallLetter char
    -- Neither of these two characters is a letter, so folding does not matter to them.
    if isQuit code then (q, .leaving)
    else
      match map.key? code with
      | some key => (q.offer key, .reading)
      | none => (q, .reading)

/-- Queues the wish to quit if there is a place. -/
def leave (q : KeyQueue) : KeyQueue × State :=
  if q.isFull then (q, .leaving) else (q.append .quit, .done)

/-- How far a reader has come on its own. -/
structure Progress where
  queue : KeyQueue
  /-- The characters that it has not read. -/
  unread : List Int
  state : State

/-- Lets the reader go on alone. -/
def run (map : KeyMap) (q : KeyQueue) : List Int → Progress
  | [] => ⟨q, [], .reading⟩
  | char :: rest =>
    match read map q char with
    | (q, .leaving) =>
      let (q, state) := leave q
      ⟨q, rest, state⟩
    | (q, _) => run map q rest

end Chip8.Terminal.KeyReader
