import Chip8.Text.Basic
import Chip8.Text.Fraction

/-!
# Chip8.Value — values of any kind

Options, figures and whatever else comes from outside has a kind, but no type.
`Value` holds all of them. The views of a value tell what it counts as:

* `Value.holds` — as a truth.
* `Value.whole?` and `Value.figure?` — as a number.
* `Value.text?` — as a text, and `Value.size?` as something that has a size.
* `Value.members` and `Value.entries` — as a list, and as a table.
-/

namespace Chip8

/-- The kinds of values. -/
inductive ValueKind where
  | nothing
  | truth
  | whole
  | fraction
  | text
  | list
  | table
deriving DecidableEq, Repr

/-- The name of a kind, as a report names it. -/
def ValueKind.label : ValueKind → String
  | nothing => "nothing"
  | truth => "a truth value"
  | whole => "a whole number"
  | fraction => "a fraction"
  | text => "a text"
  | list => "a list"
  | table => "a table"

/-- A value of any kind. -/
inductive Value where
  | nothing
  | truth (b : Bool)
  | whole (n : Int)
  | fraction (x : Float)
  | text (t : Text)
  | list (items : List Value)
  /-- Values with names. -/
  | table (entries : List (Text × Value))
deriving Repr

/-- A value that counts as a number. A truth counts as one, its opposite as
zero. -/
inductive Figure where
  | whole (n : Int)
  | truth (b : Bool)
  | fraction (x : Float)
deriving DecidableEq, Repr

namespace Figure

/-- The figure as a value. -/
def value : Figure → Value
  | whole n => .whole n
  | truth b => .truth b
  | fraction x => .fraction x

/-- Half of a figure, rounded down. There is no half of what is infinite. -/
def half : Figure → Figure
  | whole n => whole (n / 2)
  | truth b => whole (b.toInt / 2)
  | fraction x => fraction (if x.isInf then x - x else (x.floor / 2.0).floor)

/-- The whole number that a figure equals, if there is one. -/
def whole? : Figure → Option Int
  | whole n => some n
  | truth b => some b.toInt
  | fraction x => Text.wholeFraction? x

end Figure

namespace Value

/-- The kind of a value. -/
def kind : Value → ValueKind
  | nothing => .nothing
  | truth _ => .truth
  | whole _ => .whole
  | fraction _ => .fraction
  | text _ => .text
  | list _ => .list
  | table _ => .table

/-- Whether a value counts as a truth: nothing, zero and what is empty do not. -/
def holds : Value → Bool
  | nothing => false
  | truth b => b
  | whole n => n != 0
  | fraction x => x != 0.0
  | text t => !t.isEmpty
  | list items => !items.isEmpty
  | table entries => !entries.isEmpty

/-- The number that a value counts as. -/
def figure? : Value → Option Figure
  | whole n => some (.whole n)
  | truth b => some (.truth b)
  | fraction x => some (.fraction x)
  | _ => none

/-- The whole number that a value counts as. -/
def whole? : Value → Option Int
  | whole n => some n
  | truth b => some b.toInt
  | _ => none

/-- The text that a value is. -/
def text? : Value → Option Text
  | text t => some t
  | _ => none

/-- The members of a list. No other value has any. -/
def members : Value → List Value
  | list items => items
  | _ => []

/-- The entries of a table. No other value has any. -/
def entries : Value → List (Text × Value)
  | table entries => entries
  | _ => []

/-- How many code points, members or entries a value has. -/
def size? : Value → Option Nat
  | text t => some t.length
  | list items => some items.length
  | table entries => some entries.length
  | _ => none

/-- The value of a name in a table. -/
def get? (v : Value) (name : Text) : Option Value := v.entries.lookup name

end Value

end Chip8
