/-!
# Chip8.Text.Fraction — fractions in decimal digits

A machine number stands for all numbers that are rounded to it. It is written in
the fewest decimal digits that are rounded to it, and of those in the nearest,
which is the even one if two are equally near:

* `Binary` is a machine number without its sign, `Rounded` the numbers that are
  rounded to it.
* `shortest` finds the digits: it tries decimal places from coarse to fine, and
  in each the two neighbours of the number.
* `fraction` lays the digits out.
* `wholeFraction?` finds the whole number that a machine number may be.
-/

namespace Chip8.Text

/-- A machine number: `mantissa` times a power of two. -/
structure Binary where
  mantissa : Nat
  exponent : Int
deriving DecidableEq, Repr

/-- The exponent of the smallest machine numbers. -/
def Binary.minExponent : Int := -1074

/-- The leading bit of a mantissa, which is not among the stored ones. -/
def Binary.leadingBit : Nat := 0x10000000000000

/-- The number in the bits of a finite machine number, without its sign. -/
def Binary.ofBits (bits : Nat) : Binary :=
  let stored : Nat := bits / leadingBit % 0x800
  let low : Nat := bits % leadingBit
  if stored = 0 then ⟨low, minExponent⟩ else ⟨leadingBit + low, minExponent + stored - 1⟩

/-- The numbers that are rounded to one of them, as numerators over one
denominator. -/
structure Rounded where
  low : Nat
  middle : Nat
  high : Nat
  denominator : Nat
  /-- Whether the lowest and the highest are among them. -/
  closed : Bool

/-- The numbers that are rounded to a machine number. They reach halfway to its
neighbours, of which the lower one is nearer below a power of two. -/
def Binary.rounded (b : Binary) : Rounded :=
  let below := if b.mantissa = leadingBit ∧ b.exponent ≠ minExponent then 1 else 2
  let unit := Nat.pow 2 b.exponent.toNat
  { low := (4 * b.mantissa - below) * unit
    middle := 4 * b.mantissa * unit
    high := (4 * b.mantissa + 2) * unit
    denominator := 4 * Nat.pow 2 (-b.exponent).toNat
    closed := b.mantissa % 2 = 0 }

/-- A decimal number: `digits` times a power of ten. -/
structure Decimal where
  digits : Nat
  place : Int
deriving DecidableEq, Repr

namespace Rounded

/-- The numerators, brought to the denominator that a decimal place needs. -/
def scaled (r : Rounded) (place : Int) : Rounded :=
  let fine := Nat.pow 10 (-place).toNat
  ⟨r.low * fine, r.middle * fine, r.high * fine, r.denominator * Nat.pow 10 place.toNat, r.closed⟩

/-- Whether so many denominators are among the numbers. -/
def holds (r : Rounded) (count : Nat) : Bool :=
  let n := count * r.denominator
  if r.closed then r.low ≤ n && n ≤ r.high else r.low < n && n < r.high

/-- The count of denominators among the numbers that is nearest to the middle, the
even one of two that are equally near. -/
def nearest? (r : Rounded) : Option Nat :=
  let below := r.middle / r.denominator
  match r.holds below, r.holds (below + 1) with
  | false, false => none
  | true, false => some below
  | false, true => some (below + 1)
  | true, true =>
    -- Both neighbours are among the numbers, so the nearer one is taken, or else the even
    -- one.
    let halfway := (2 * below + 1) * r.denominator
    if 2 * r.middle < halfway then some below
    else if halfway < 2 * r.middle then some (below + 1)
    else some (below + below % 2)

/-- A place that is coarser than that of the first digit. -/
def coarsePlace (r : Rounded) : Int :=
  if r.denominator ≤ r.middle then (Nat.toDigits 10 (r.middle / r.denominator)).length
  else 1 - (Nat.toDigits 10 (r.denominator / r.middle)).length

/-- The decimal of the coarsest place among the numbers, from `place` on, trying
`tries` places. -/
def coarsest (r : Rounded) (place : Int) : Nat → Decimal
  | 0 => ⟨0, place⟩
  | tries + 1 =>
    match (r.scaled place).nearest? with
    | some digits => ⟨digits, place⟩
    | none => r.coarsest (place - 1) tries

end Rounded

/-- The decimal with the fewest digits that is rounded to a machine number.
Seventeen digits are always enough. -/
def Binary.shortest (b : Binary) : Decimal :=
  let r := b.rounded
  r.coarsest r.coarsePlace 20

/-- Lays digits out. `point` is where the point stands among them. They are
written with the point in its place as long as it is not too far away, and else
with a power of ten. -/
def layOut (digits : List Char) (point : Int) : List Char :=
  if -4 < point ∧ point ≤ 16 then
    let whole := digits.take point.toNat ++ List.replicate (point.toNat - digits.length) '0'
    let part := List.replicate (-point).toNat '0' ++ digits.drop point.toNat
    (if whole.isEmpty then ['0'] else whole) ++ '.' :: (if part.isEmpty then ['0'] else part)
  else
    -- One digit stands before the point, and the power has two digits at least.
    let power := Nat.toDigits 10 (point - 1).natAbs
    let part := digits.drop 1
    digits.take 1 ++ (if part.isEmpty then [] else '.' :: part) ++
      'e' :: (if point < 1 then '-' else '+') :: List.replicate (2 - power.length) '0' ++ power

/-- A machine number without its sign in decimal digits. -/
def Binary.text (b : Binary) : List Char :=
  if b.mantissa = 0 then ['0', '.', '0']
  else
    let decimal := b.shortest
    let digits := Nat.toDigits 10 decimal.digits
    layOut digits (digits.length + decimal.place)

/-- The whole number that a machine number is, if it is one. -/
def Binary.whole? (b : Binary) : Option Nat :=
  let numerator := b.mantissa * Nat.pow 2 b.exponent.toNat
  let denominator := Nat.pow 2 (-b.exponent).toNat
  if numerator % denominator = 0 then some (numerator / denominator) else none

/-- The whole number that a fraction equals, if there is one. -/
def wholeFraction? (x : Float) : Option Int :=
  if x.isNaN || x.isInf then none
  else
    let bits := x.toBits.toNat
    let sign : Int := if bits < 0x8000000000000000 then 1 else -1
    (Binary.ofBits bits).whole?.map fun n => sign * n

/-- A fraction in decimal digits. -/
def fraction (x : Float) : String :=
  if x.isNaN then "nan"
  else
    let bits := x.toBits.toNat
    let sign := if bits < 0x8000000000000000 then "" else "-"
    sign ++ if x.isInf then "inf" else String.ofList (Binary.ofBits bits).text

example : (Binary.ofBits 0x3FB999999999999A).text = "0.1".toList := by decide +kernel
example : (Binary.ofBits 0x4340000000000000).whole? = some 9007199254740992 := by decide +kernel
example : (Binary.ofBits 0x3FB999999999999A).whole? = none := by decide +kernel
example : (Binary.ofBits 1).text = "5e-324".toList := by decide +kernel
example : (Binary.ofBits 0x4340000000000000).text = "9007199254740992.0".toList := by
  decide +kernel

end Chip8.Text
