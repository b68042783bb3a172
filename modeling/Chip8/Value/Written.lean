import Chip8.Text.Fraction
import Chip8.Text.Quoted
import Chip8.Value

/-!
# Chip8.Value.Written — values in writing

How a value appears in a text that a user sees. A text is written as it is; within
a list or a table it stands in quotation marks.
-/

namespace Chip8.Value

mutual

/-- A value in writing, as it stands within another value. -/
def inner : Value → Text
  | nothing => "None"
  | truth b => if b then "True" else "False"
  | whole n => toString n
  | fraction x => Text.fraction x
  | text t => Text.quoted t
  | list items => "[" ++ Text.joined ", " (innerItems items) ++ "]"
  | table entries => "\x7b" ++ Text.joined ", " (innerEntries entries) ++ "\x7d"

/-- The members of a list in writing. -/
def innerItems : List Value → List Text
  | [] => []
  | v :: rest => v.inner :: innerItems rest

/-- The entries of a table in writing, each after its name. -/
def innerEntries : List (Text × Value) → List Text
  | [] => []
  | (name, v) :: rest => (Text.quoted name ++ ": " ++ v.inner) :: innerEntries rest

end

/-- A value in writing. -/
def written : Value → Text
  | text t => t
  | v => v.inner

/-- A whole number is written in digits. -/
@[simp] theorem written_whole (n : Int) : (whole n).written = toString n := by
  simp [written, inner]

end Chip8.Value
