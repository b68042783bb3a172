import Chip8.CommandLine.Parse
import Chip8.Session

/-!
# Chip8.Main — the command line program

Reads the options, the program file and the clock of the system, prints, and
leaves everything else to the session. Here there are neither windows nor a
terminal to draw on, so only runs that nobody watches come about.
-/

namespace Chip8.Main

open Chip8.Session

/-- A part of a session on the system. -/
abbrev Live := ExceptT Failure IO

/-- What the system says about a file. -/
def readFile (name : String) : IO (Except FileError (Array UInt8)) := do
  try
    return .ok (← IO.FS.readBinFile name).data
  catch error =>
    match error with
    | .noFileOrDirectory .. => return .error .notFound
    | .inappropriateType _ _ details =>
      return .error (if details.toLower == "not a directory" then .notDirectory else .isDirectory)
    | .invalidArgument _ _ "name too long" => return .error .nameTooLong
    | .permissionDenied .. => return .error (.other "Permission denied")
    | error => return .error (.other (toString error))

/-- What the system says about the file that holds the program. -/
def readSource (filename : Setting ProgramFile.Source) : IO (Except FileError (Array UInt8)) :=
  match filename with
  | .value (.named name) => readFile (Text.asString name)
  | _ => return .error .notOpen

/-- The clock of the system, in seconds. -/
def now : IO Float := do
  return Float.ofNat (← IO.monoNanosNow) / 1000000000.0

/-- What the system can answer before a session begins. -/
def surroundings (file : Except FileError (Array UInt8)) : IO (Surroundings Float) := do
  let entropy ← IO.getRandomBytes 8
  let seed := entropy.data.foldl (fun seed byte => seed * 0x100 + byte.toUInt64) 0
  return {
    read := fun _ => file
    hasWindows := false
    hasTerminal := false
    refusesCursor := false
    size := (0, 0)
    canResize := false
    typed := []
    events := []
    busy := []
    random := .seeded seed
    moments := []
    readings := [] }

/-- Prints what a world has to print. -/
def printLines (w : World Float) : IO (World Float) := do
  let (w, lines) := w.flush
  for line in lines do
    IO.println (Text.asString line)
  return w

/-- Carries out a part of a session on a world that is kept in a cell. -/
def act (cell : IO.Ref (World Float)) {α : Type} (activity : Activity Float α) : Live α := do
  let (result, w) := activity.run (← cell.get)
  cell.set (← printLines w)
  liftExcept result
where
  /-- The result of a part of a session. -/
  liftExcept (result : Except Failure α) : Live α :=
    match result with
    | .ok value => return value
    | .error failure => throw failure

/-- Runs a machine by the clock of the system. -/
partial def run (p : Pacer Float (Headless.State Float)) (phase : Pacer.Phase Float) :
    Live Unit := do
  let (p, next) := p.react Headless.host phase (← now)
  let world ← printLines p.host.world
  let p := { p with host := { p.host with world := world } }
  match next with
  | .ok phase => run p phase
  | .error ending =>
    match Failure.ofEnding? ending with
    | none => return ()
    | some failure => throw failure

/-- A session on the system. -/
def session (r : Request Float) (cell : IO.Ref (World Float)) : Live Unit := do
  match ← act cell (enter r) with
  | some .headless =>
    let lifecycle := (Headless.lifecycle r).lift (act cell)
    { lifecycle with run := fun p => run p .ready }.perform
  | kind => act cell (performOn r kind)

end Chip8.Main

open Chip8 in
/-- Runs the program that the command line names. -/
def main (arguments : List String) : IO UInt32 := do
  match CommandLine.parse (arguments.map Text.ofString) with
  | .error .helpWanted =>
    IO.println (Text.asString CommandLine.Error.helpWanted.text)
    return 0
  | .error e =>
    IO.eprintln (Text.asString e.message)
    return 2
  | .ok options =>
    let around ← Main.surroundings (← Main.readSource options.filename)
    let cell ← IO.mkRef (Session.World.start around)
    match ← (Main.session ⟨options, []⟩ cell).run with
    | .ok () => return 0
    | .error failure =>
      IO.eprintln (Text.asString failure.message)
      return 1
