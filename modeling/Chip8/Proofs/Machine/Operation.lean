import Chip8.Machine.Step

/-!
# Chip8.Proofs.Machine.Operation — what is done to a machine from outside

A machine is built once and then goes through operations: resets, loads, changes
of the keys, settled pictures and steps. Any of them may be refused or cut short,
and the machine goes on from what it has left.

`Machine.Reachable` are the machines that operations lead to. Nothing is asked of
the random source, so what holds of them holds with every source.
-/

namespace Chip8.Machine

/-- What can be done to a machine. -/
inductive Operation where
  | reset
  | load (program : Array UInt8)
  /-- The keys are set to what the items of an argument count as. There is nothing
  to set them to if the argument has no items. -/
  | setKeys (states : Option (List Bool))
  | settle
  | step

/-- Why an operation was refused or cut short. -/
inductive Refusal where
  | load (error : LoadError)
  | keyCount (error : Keypad.CountError)
  | noKeyStates
  | fault (cause : Fault)

/-- What an operation leaves, and why it was refused, if it was. -/
def perform (m : Machine) : Operation → Machine × Option Refusal
  | .reset => (m.reset, none)
  | .load program =>
    match m.load program with
    | .ok m' => (m', none)
    | .error e => (m, some (.load e))
  | .setKeys none => (m, some .noKeyStates)
  | .setKeys (some states) =>
    match m.setKeys states with
    | .ok m' => (m', none)
    | .error e => (m, some (.keyCount e))
  | .settle => (m.settleDisplay, none)
  | .step => (m.step.machine, m.step.fault.map .fault)

/-- What a row of operations leaves. -/
def performAll (m : Machine) (operations : List Operation) : Machine :=
  operations.foldl (fun m operation => (m.perform operation).1) m

theorem perform_step (m : Machine) : (m.perform .step).1 = m.step.machine := rfl

theorem performAll_step (m : Machine) (operations : List Operation) :
    m.performAll (.step :: operations) = m.step.machine.performAll operations := rfl

theorem performAll_nil (m : Machine) : m.performAll [] = m := rfl

/-- As many states as there are keys are accepted. -/
theorem perform_setKeys_of_ok {states : List Bool} {keys : Keypad}
    (h : Keypad.ofList states = .ok keys) (m : Machine) :
    m.perform (.setKeys (some states)) = (m.hold keys, none) := by
  simp only [perform, setKeys, h]
  rfl

/-- Any other number of states is refused, and changes nothing. -/
theorem perform_setKeys_of_error {states : List Bool} {e : Keypad.CountError}
    (h : Keypad.ofList states = .error e) (m : Machine) :
    m.perform (.setKeys (some states)) = (m, some (.keyCount e)) := by
  simp only [perform, setKeys, h]
  rfl

/-- The machines that operations on a new machine lead to. -/
inductive Reachable : Machine → Prop where
  | fresh (random : RandomSource) : Reachable (fresh random)
  | perform {m : Machine} (operation : Operation) :
    Reachable m → Reachable (m.perform operation).1

variable {m : Machine}

/-- Machines that are reached are not left by further operations. -/
theorem Reachable.performAll (h : m.Reachable) (operations : List Operation) :
    (m.performAll operations).Reachable := by
  induction operations generalizing m with
  | nil => exact h
  | cons operation rest ih => exact ih (h.perform operation)

end Chip8.Machine
