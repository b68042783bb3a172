/-!
# Chip8.Keypad — the sixteen keys

The keypad has the keys `0` to `F`. A program only sees which of them are held
down.
-/

namespace Chip8

/-- A key of the keypad. -/
abbrev Key := Fin 16

/-- Which keys are held down. -/
abbrev Keypad := Vector Bool 16

/-- The entries that belong to the keys, with that of one key replaced. -/
def Key.assign {α : Type} (entries : Vector α 16) (key : Key) (entry : α) : Vector α 16 :=
  entries.set key entry key.isLt

/-- What belongs to a key after an assignment: the new entry for the key, the old one for
others. -/
theorem Key.get_assign {α : Type} (entries : Vector α 16) (key : Key) (entry : α) (other : Key) :
    (Key.assign entries key entry).get other =
      if key = other then entry else entries.get other := by
  have hget (v : Vector α 16) : v.get other = v[other.val] := rfl
  rw [hget, hget, Key.assign, Vector.getElem_set]
  by_cases h : key = other
  · simp [h]
  · simp [h, Fin.val_ne_of_ne h]

namespace Keypad

/-- No key is held. -/
def released : Keypad := Vector.replicate 16 false

/-- A list of key states of a wrong length. -/
structure CountError where
  count : Nat
deriving DecidableEq, Repr

/-- The report of a wrong count. -/
def CountError.message (e : CountError) : String :=
  "Expected 16 key states, got " ++ toString e.count

/-- The keypad whose keys are held as the list says, key `0` first. The list
has to speak of each key once. -/
def ofList (states : List Bool) : Except CountError Keypad :=
  if h : states.length = 16 then .ok ⟨states.toArray, by simpa using h⟩
  else .error ⟨states.length⟩

theorem ofList_toList (k : Keypad) : ofList k.toList = .ok k := by
  simp [ofList, Vector.toList]

/-- Whether the key with number `code` is held, if there is such a key. -/
def held? (k : Keypad) (code : UInt8) : Option Bool := k[code.toNat]?

/-- The held key with the lowest number. -/
def lowestHeld? (k : Keypad) : Option Key := k.findFinIdx? id

/-- There is no lowest held key just when no key is held. -/
theorem lowestHeld?_eq_none_iff {k : Keypad} :
    k.lowestHeld? = none ↔ ∀ key : Key, k[key] = false := by
  rw [lowestHeld?, Vector.findFinIdx?_eq_none_iff]
  constructor
  · -- From the search over all entries to a question about each key, and back.
    intro h key
    exact Bool.eq_false_iff.mpr (h k[key] (Vector.getElem_mem key.isLt))
  · intro h held hheld
    obtain ⟨n, hn, rfl⟩ := Vector.getElem_of_mem hheld
    exact Bool.eq_false_iff.mp (h ⟨n, hn⟩)

/-- The lowest held key is held, and no key below it is. -/
theorem lowestHeld?_eq_some_iff {k : Keypad} {key : Key} :
    k.lowestHeld? = some key ↔ k[key] = true ∧ ∀ lower < key, k[lower] = false := by
  obtain ⟨states, hsize⟩ := k
  -- The search runs over an array of the same length, so a key is an index of that array.
  have hcast (n : Fin states.size) : Fin.cast hsize n = key ↔ n = Fin.cast hsize.symm key := by
    constructor
    · rintro rfl
      rfl
    · rintro rfl
      rfl
  simp only [lowestHeld?, Vector.findFinIdx?, Option.map_eq_some_iff, hcast, exists_eq_right,
    Array.findFinIdx?_eq_some_iff]
  constructor
  · rintro ⟨hheld, hlower⟩
    refine ⟨hheld, fun lower hlt => ?_⟩
    exact Bool.eq_false_iff.mpr (hlower (Fin.cast hsize.symm lower) hlt)
  · rintro ⟨hheld, hlower⟩
    refine ⟨hheld, fun lower hlt => ?_⟩
    exact Bool.eq_false_iff.mp (hlower (Fin.cast hsize lower) hlt)

end Keypad

end Chip8
