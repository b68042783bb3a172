import Chip8.Value

/-!
# Chip8.Setting — what an option is set to

An option wants values of one kind. Whoever asks for a run may still set it to a
value of another kind, above all to nothing, which stands for the default where
there is one. So a setting is a value of the wanted kind, or only tells of which
other kind it is:

* `Setting.ofValue` makes a setting of a value of any kind.
* `Setting.optional` takes a value or nothing.
* `Setting.required` takes a value only.
-/

namespace Chip8

/-- What an option that wants values of the type `α` is set to. -/
inductive Setting (α : Type) where
  | value (value : α)
  | other (kind : ValueKind)
deriving DecidableEq, Repr

namespace Setting

variable {α : Type}

/-- The setting that a value is where values are wanted that `read` finds. -/
def ofValue (read : Value → Option α) (v : Value) : Setting α :=
  match read v with
  | some a => value a
  | none => other v.kind

/-- The option is set to nothing. -/
def unset : Setting α := other .nothing

/-- The value, if there is one. -/
def value? : Setting α → Option α
  | value a => some a
  | other _ => none

/-- The value, or nothing. Fails with any other kind. -/
def optional : Setting α → Except ValueKind (Option α)
  | value a => .ok (some a)
  | other .nothing => .ok none
  | other kind => .error kind

/-- The value. Fails with any other kind. -/
def required : Setting α → Except ValueKind α
  | value a => .ok a
  | other kind => .error kind

end Setting

end Chip8
