/-!
# Chip8.RandomSource — random numbers

A program draws random numbers one by one. A source is the sequence of all the
numbers it will ever give, with the count of those drawn so far, so that a run
can be repeated by giving it the same sequence.
-/

namespace Chip8

/-- A sequence of numbers and how many of them are drawn already. -/
structure RandomSource where
  answer : Nat → Int
  drawn : Nat

namespace RandomSource

/-- A source that gives the listed numbers and then zeros. -/
def ofList (answers : List Int) : RandomSource :=
  let table := answers.toArray
  ⟨fun n => table.getD n 0, 0⟩

/-- Mixes the bits of a number, so that close numbers come out far apart. -/
def mix (x : UInt64) : UInt64 :=
  let x := (x ^^^ (x >>> 30)) * 0xBF58476D1CE4E5B9
  let x := (x ^^^ (x >>> 27)) * 0x94D049BB133111EB
  x ^^^ (x >>> 31)

/-- A source of bytes that look random. Different seeds give different ones. -/
def seeded (seed : UInt64) : RandomSource :=
  ⟨fun n => (mix (seed + (n.toUInt64 + 1) * 0x9E3779B97F4A7C15) % 0x100).toNat, 0⟩

/-- The number that the next draw gives. -/
def next (r : RandomSource) : Int := r.answer r.drawn

/-- Draws one number. -/
def draw (r : RandomSource) : Int × RandomSource :=
  (r.next, { r with drawn := r.drawn + 1 })

end RandomSource

end Chip8
