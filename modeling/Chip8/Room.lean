/-!
# Chip8.Room — asking for room

Memory, pictures, waves and lines of text take up room, which is asked for by a
number of bytes:

* `Countable n` — `n` is a number that a host counts with.
* `room n` — the room of `n` bytes, or why there is none.
-/

namespace Chip8

/-- The numbers that a host counts with: whole numbers of 64 bits. -/
def Countable (n : Int) : Prop := -0x8000000000000000 ≤ n ∧ n < 0x8000000000000000

instance (n : Int) : Decidable (Countable n) := inferInstanceAs (Decidable (_ ∧ _))

/-- The most bytes that a host gives at once. -/
def largestRoom : Nat := 0x1000000000

/-- Why there is no room of some size. -/
inductive RoomError where
  /-- The size is not even a number that a host counts with. -/
  | uncountable
  | negative
  /-- The size is larger than any room. -/
  | exhausted
deriving DecidableEq, Repr

/-- The report of a size that there is no room of. -/
def RoomError.message : RoomError → String
  | uncountable => "The size is too large to be counted"
  | negative => "The size is negative"
  | exhausted => "There is not enough room"

/-- Room for `size` bytes. -/
def room (size : Int) : Except RoomError Nat :=
  if ¬ Countable size then .error .uncountable
  else if size < 0 then .error .negative
  else if largestRoom < size then .error .exhausted
  else .ok size.toNat

/-- There is room for every number of bytes up to the largest. -/
theorem room_natCast {size : Nat} (h : size ≤ largestRoom) : room size = .ok size := by
  have hcount : Countable (size : Int) := by
    unfold Countable
    unfold largestRoom at h
    omega
  have hsize : ¬ (largestRoom : Int) < size := by omega
  simp [room, hcount, hsize]

example : room (2 ^ 63) = .error .uncountable := rfl
example : room (-2 ^ 63) = .error .negative := rfl
example : room (2 ^ 63 - 1) = .error .exhausted := rfl

end Chip8
