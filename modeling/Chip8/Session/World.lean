import Chip8.Session.Failure
import Chip8.Terminal.Call
import Chip8.Window.Keys

/-!
# Chip8.Session.World — a session and what surrounds it

A session asks its surroundings for files, for what the user does and for the
time, and it leaves calls on the host and printed lines behind. `World` holds
both, so that a whole session is a function of its surroundings. An `Activity`
is a part of a session: it changes the world, and it may fail; what it did to the
world before it failed stays done.
-/

namespace Chip8.Session

/-- A call on the host. -/
inductive HostCall where
  | window (call : Window.Call)
  | terminal (call : Terminal.Call)
deriving Repr

/-- What the surroundings of a session answer when they are asked. A file that is not opened
and a cursor that is not hidden are all that they can refuse: every other call on the host,
such as setting a mode, making a pad or setting a volume, is taken to succeed. -/
structure Surroundings (τ : Type) where
  read : Text → Except FileError (Array UInt8)
  /-- Whether there is a window system. -/
  hasWindows : Bool
  /-- Whether there is a terminal. -/
  hasTerminal : Bool
  /-- Whether the terminal refuses to hide its cursor when it is taken over. When it is given
  back it is asked for a plain cursor and may refuse again. But the session goes on as if it
  had not, so such a refusal changes no call and is left out. -/
  refusesCursor : Bool
  /-- The rows and columns of the terminal. -/
  size : Int × Int
  /-- Whether the terminal can be told of a new size. -/
  canResize : Bool
  /-- The characters that are typed at the terminal. -/
  typed : List Int
  /-- What the window reports, batch by batch; then it reports nothing. -/
  events : List (List Window.Event)
  /-- Whether the mixer is busy, each time it is asked; then it is not. -/
  busy : List Bool
  random : RandomSource
  /-- The readings of the clock that the keys and the bell of a terminal go by,
  each time they ask; then it shows zero. -/
  moments : List τ
  /-- The readings of the clock that the machine is paced by. -/
  readings : List τ

/-- A session in progress. -/
structure World (τ : Type) where
  /-- What the surroundings will answer from now on. -/
  around : Surroundings τ
  /-- The calls on the host so far. -/
  calls : Array HostCall
  /-- The lines printed so far. -/
  printed : Array Text

namespace World

variable {τ : Type}

/-- Nothing happened yet. -/
def start (around : Surroundings τ) : World τ := ⟨around, #[], #[]⟩

/-- Calls the window system. -/
def callWindow (w : World τ) (calls : List Window.Call) : World τ :=
  { w with calls := w.calls ++ (calls.map HostCall.window).toArray }

/-- Calls the terminal. -/
def callTerminal (w : World τ) (calls : List Terminal.Call) : World τ :=
  { w with calls := w.calls ++ (calls.map HostCall.terminal).toArray }

/-- Prints a line. -/
def say (w : World τ) (line : Text) : World τ :=
  { w with printed := w.printed.push line }

/-- Takes the printed lines away. -/
def flush (w : World τ) : World τ × Array Text :=
  ({ w with printed := #[] }, w.printed)

/-- Takes the next batch of events. -/
def nextEvents (w : World τ) : World τ × List Window.Event :=
  ({ w with around := { w.around with events := w.around.events.tail } },
    w.around.events.headD [])

/-- Takes the next reading of the clock of a terminal. -/
def nextMoment [Time τ] (w : World τ) : World τ × τ :=
  ({ w with around := { w.around with moments := w.around.moments.tail } },
    w.around.moments.headD Time.zero)

end World

/-! ## Activities -/

/-- A part of a session. -/
abbrev Activity (τ : Type) := ExceptT Failure (StateM (World τ))

/-- What a result gives, or the failure that its cause stands for. -/
def attempt {τ ε α : Type} (failure : ε → Failure) (result : Except ε α) : Activity τ α :=
  match result with
  | .ok value => return value
  | .error cause => throw (failure cause)

/-- What a session is asked to do. -/
structure Request (τ : Type) where
  options : Options τ
  /-- The options that are not even given as nothing. -/
  missing : List OptionName

namespace Request

/-- The request that a table of options makes. -/
def ofTable (table : Value) : Request Float where
  options := .ofValues fun name => (table.get? name.label).getD .nothing
  missing := OptionName.all.filter fun name => (table.get? name.label).isNone

variable {τ : Type}

/-- Fails unless all listed options are there; the first missing one counts. -/
def require (r : Request τ) : List OptionName → Except Failure Unit
  | [] => .ok ()
  | name :: names =>
    if name ∈ r.missing then .error (.missingOption name) else r.require names

/-- The setting of an option, or the report of its wrong kind. -/
def setting {α : Type} (name : OptionName) (s : Except ValueKind α) : Activity τ α :=
  attempt (fun kind => .wrongKind ⟨name, kind⟩) s

/-- Loads the program. That everything may be printed is looked up with it. -/
def loadProgram (r : Request τ) : Activity τ (Array UInt8) := do
  r.require [.filename]
  let name ← setting .filename r.options.filename.required
  let w ← get
  let program ← attempt Failure.program (ProgramFile.load w.around.read name programRoom)
  r.require [.trace]
  return program

/-- Builds a machine with its program. -/
def buildMachine (program : Array UInt8) : Activity τ Machine := do
  let w ← get
  attempt Failure.load ((Machine.fresh w.around.random).load program)

/-- The key map. -/
def keyMap (r : Request τ) (folding : Bool) : Activity τ KeyMap := do
  r.require [.keymap]
  let text ← setting .keymap r.options.keymap.required
  attempt Failure.keymap (KeyMap.parse text folding)

end Request

end Chip8.Session
