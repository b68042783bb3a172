/-!
# Chip8.Time — readings of a clock

Pacing, held keys and the bell work with readings of a clock, in seconds. `Time`
lists what they need of a reading, so that the same definitions run on machine
numbers and can be studied on exact ones:

* `Float` is what a running emulator uses. Sums are rounded, a whole number may
  be too large to have a counterpart, and a reading may be infinite.
* `Rat` is exact and never fails.
-/

namespace Chip8

/-- What the emulator needs of a clock reading in seconds. -/
class Time (τ : Type) where
  zero : τ
  add : τ → τ → τ
  sub : τ → τ → τ
  lt : τ → τ → Bool
  le : τ → τ → Bool
  /-- A whole number of seconds, unless it is too large. -/
  ofWhole? : Int → Option τ
  /-- The fraction `n / d` of a second. -/
  fraction : Nat → Nat → τ
  /-- How long one of so many equal parts of a second lasts. -/
  part : τ → τ
  /-- One second more than the whole seconds of a reading, unless the reading
  is infinite. -/
  nextSecond? : τ → Option τ

instance : Time Float where
  zero := 0.0
  add := (· + ·)
  sub := (· - ·)
  lt a b := decide (a < b)
  le a b := decide (a ≤ b)
  ofWhole? n :=
    let x := Float.ofInt n
    if x.isInf then none else some x
  fraction n d := Float.ofNat n / Float.ofNat d
  part x := 1.0 / x
  nextSecond? t :=
    if t.isInf then none
    else some ((if t < 0.0 then t.ceil else t.floor) + 1.0)

instance : Time Rat where
  zero := 0
  add := (· + ·)
  sub := (· - ·)
  lt a b := decide (a < b)
  le a b := decide (a ≤ b)
  ofWhole? n := some (Rat.ofInt n)
  fraction n d := mkRat n d
  part x := 1 / x
  nextSecond? t := some (Rat.ofInt (if t < 0 then t.ceil else t.floor) + 1)

/-- A rate, given as a whole number or as a measured one. -/
inductive Rate (τ : Type) where
  | whole (n : Int)
  | measured (x : τ)

end Chip8
