import Chip8.Fault

/-!
# Chip8.CallStack — the open calls

The addresses of the calls that have not returned, the oldest first. A limit
bounds how many may be open. A call beyond it and a return without a call are
faults and change nothing. The stack does not look at the addresses, so they may
be of any type.
-/

namespace Chip8

/-- The open calls of a program. -/
structure CallStack (α : Type) where
  /-- How many calls may be open at once. -/
  limit : Int
  /-- The addresses of the open calls, the oldest first. -/
  calls : List α
deriving DecidableEq, Repr

namespace CallStack

variable {α : Type}

/-- No call is open. -/
def empty (limit : Int) : CallStack α := ⟨limit, []⟩

/-- How many calls are open. -/
def depth (s : CallStack α) : Nat := s.calls.length

/-- Opens a call made at `address`. -/
def push (s : CallStack α) (address : α) : Except Fault (CallStack α) :=
  if s.limit ≤ s.depth then .error (.stackOverflow s.limit)
  else .ok { s with calls := s.calls ++ [address] }

/-- Closes the newest call and gives its address. -/
def pop (s : CallStack α) : Except Fault (α × CallStack α) :=
  match s.calls.getLast? with
  | none => .error .stackUnderflow
  | some address => .ok (address, { s with calls := s.calls.dropLast })

/-- Forgets every call. -/
def clear (s : CallStack α) : CallStack α := empty s.limit

end CallStack

end Chip8
