import Chip8.Headless
import Chip8.Session.Lifecycle
import Chip8.Session.World
import Chip8.Terminal.Bell
import Chip8.Terminal.Keys
import Chip8.Window.Buzzer

/-!
# Chip8.Session.FrontEnd — the three front ends in a session

Each front end has a screen, keys and a sound of its own. `Live` holds the three
together with the world, which makes a state that a machine can run on. For each
front end there is the host that serves the machine, and the lifecycle of a
session on it.
-/

namespace Chip8.Session

/-- The parts of a front end while a machine runs on them. -/
structure Live (Screen Sound Keys τ : Type) where
  screen : Screen
  sound : Sound
  keys : Keys
  world : World τ

/-- Prints a line. -/
def Live.say {Screen Sound Keys τ : Type} (s : Live Screen Sound Keys τ) (line : Text) :
    Live Screen Sound Keys τ :=
  { s with world := s.world.say line }

/-! ## Pace and run, on any front end -/

section Run

variable {Screen Sound Keys τ : Type} [Time τ]

/-- Sets the pace of a machine. -/
def pace (r : Request τ) (H : Host (Live Screen Sound Keys τ)) (screen : Screen) (sound : Sound)
    (machine : Machine) (keys : Keys) : Activity τ (Pacer τ (Live Screen Sound Keys τ)) := do
  r.require [.clockSpeed]
  let rate ← Request.setting .clockSpeed r.options.clockSpeed.optional
  let live := r.options.trace.value?.getD false
  let host := ⟨screen, sound, keys, ← get⟩
  let p ← attempt Failure.rate (Pacer.start H machine host live rate)
  -- The first report has reached the host already.
  set p.host.world
  return p

/-- Runs a machine until the user quits, or to a failure. -/
def run (H : Host (Live Screen Sound Keys τ)) (p : Pacer τ (Live Screen Sound Keys τ)) :
    Activity τ Unit := do
  let outcome := p.run H p.host.world.around.readings
  let world := outcome.pacer.host.world
  -- The world is kept as the run leaves it, also where the run ends in a failure.
  set { world with around := { world.around with readings := outcome.unread } }
  match Failure.ofEnding? outcome.ending with
  | none => return ()
  | some failure => throw failure

/-- Looks the options of a screen up. -/
def requireScreen (r : Request τ) : Activity τ Unit :=
  r.require [.scale, .palette, .smoothing]

end Run

/-! ## No front end -/

namespace Headless

open Chip8.Headless

variable {τ : Type}

/-- A run that nobody watches. -/
abbrev State (τ : Type) := Live Screen Sound Keys τ

/-- A machine that nobody watches runs on this. -/
def host : Host (State τ) where
  pump s := (s, false)
  keys s := (s, s.keys.held)
  report s r := { s with screen := s.screen.setTitle (.text r.title) }
  draw s _ := { s with screen := s.screen.draw }
  refresh s := s
  beep s := { s with sound := s.sound.beep }
  print s line := s.say line

/-- A session that nobody watches. -/
def lifecycle [Time τ] (r : Request τ) :
    Lifecycle (Activity τ) (Array UInt8) Screen Sound Machine Keys (Pacer τ (State τ)) where
  load := r.loadProgram
  openScreen := do
    requireScreen r
    return .start r.options.scale
  openSound := return .silent
  build := Request.buildMachine
  openKeys _ := return .start (← r.keyMap false)
  pace := pace r host
  run := run host
  closeKeys _ := return ()
  closeSound _ := return ()
  closeScreen _ := return ()

end Headless

/-! ## A window -/

namespace Window

open Chip8.Window

variable {τ : Type}

/-- A run in a window. There may be no sound. -/
abbrev State (τ : Type) := Live Screen (Option Buzzer) Keys τ

/-- Calls the window system. -/
def call (calls : List Call) : Activity τ Unit := modify (·.callWindow calls)

/-- Sounds a beep, if there is a sound. -/
def beep (s : State τ) : State τ :=
  match s.sound with
  | none => s
  | some buzzer =>
    let (buzzer, calls, busy) := buzzer.beep s.world.around.busy
    let world := s.world.callWindow calls
    { s with
      sound := some buzzer
      world := { world with around := { world.around with busy := busy } } }

/-- A machine runs on this in a window. The pictures of a machine have only
unlit and lit pixels, and as many as the window, so drawing them does not
fail. -/
def host : Host (State τ) where
  pump s :=
    let (world, batch) := s.world.nextEvents
    let (keys, quit) := s.keys.pump batch
    ({ s with keys := keys, world := world }, quit)
  keys s := (s, s.keys.held)
  report s r :=
    let (screen, calls) := s.screen.setTitle (.text r.title)
    { s with screen := screen, world := s.world.callWindow calls }
  draw s frame := { s with screen := (s.screen.draw frame).1 }
  refresh s :=
    let (screen, calls) := s.screen.refresh
    { s with screen := screen, world := s.world.callWindow calls }
  beep := beep
  print s line := s.say line

/-- Opens the window. -/
def openScreen (r : Request τ) : Activity τ Screen := do
  requireScreen r
  let (calls, result) := Screen.start r.options.scale r.options.palette r.options.smoothing
  -- The calls that were made stay made, also where the screen is refused in the end.
  call calls
  attempt Failure.window result

/-- Opens the mixer, unless the sound is muted. -/
def openSound (r : Request τ) : Activity τ (Option Buzzer) := do
  if r.options.mute = .value true then return none
  let (buzzer, calls) := Buzzer.start
  call calls
  return some buzzer

/-- A session in a window. -/
def lifecycle [Time τ] (r : Request τ) :
    Lifecycle (Activity τ) (Array UInt8) Screen (Option Buzzer) Machine Keys
      (Pacer τ (State τ)) where
  load := r.loadProgram
  openScreen := openScreen r
  openSound := openSound r
  build := Request.buildMachine
  openKeys _ := return .start (← r.keyMap false)
  pace := pace r host
  run := run host
  closeKeys _ := return ()
  closeSound
    | none => return ()
    | some buzzer => call buzzer.close
  closeScreen screen := call screen.close

end Window

/-! ## A terminal -/

namespace Terminal

open Chip8.Terminal

variable {τ : Type} [Time τ]

/-- A run on a terminal. There may be no sound. -/
abbrev State (τ : Type) := Live Screen (Option (Bell τ)) (Keys τ) τ

/-- Calls the terminal. -/
def call (calls : List Call) : Activity τ Unit := modify (·.callTerminal calls)

/-- Sounds a beep, if there is a sound. -/
def beep (s : State τ) : State τ :=
  match s.sound with
  | none => s
  | some bell =>
    let (world, now) := s.world.nextMoment
    let (bell, calls) := bell.beep now
    { s with sound := some bell, world := world.callTerminal calls }

/-- A machine runs on this on a terminal. The keys and the bell have a clock of
their own. -/
def host : Host (State τ) where
  pump s :=
    let (world, now) := s.world.nextMoment
    let (keys, quit) := s.keys.pump now
    ({ s with keys := keys, world := world }, quit)
  keys s :=
    let (world, now) := s.world.nextMoment
    let (keys, held) := s.keys.states now
    ({ s with keys := keys, world := world }, held)
  report s r :=
    let (screen, calls) := s.screen.setTitle r.title
    { s with screen := screen, world := s.world.callTerminal calls }
  draw s frame :=
    let (screen, calls) := s.screen.draw frame
    { s with screen := screen, world := s.world.callTerminal calls }
  refresh s :=
    let (screen, calls) := s.screen.refresh s.world.around.size s.world.around.canResize
    { s with screen := screen, world := s.world.callTerminal calls }
  beep := beep
  print s line := s.say line

/-- Opens the terminal. -/
def openScreen (r : Request τ) : Activity τ Screen := do
  requireScreen r
  let w ← get
  let (calls, result) := Screen.start r.options.scale Screen.hiddenCursor w.around.refusesCursor
  call calls
  attempt Failure.terminal result

/-- The bell, if it is asked for: nothing at all does not ask for it, and neither
does the wish to mute it. -/
def openSound (r : Request τ) : Activity τ (Option (Bell τ)) :=
  return if r.options.mute = .unset ∨ r.options.mute = .value true then none else some .silent

/-- The keys that are typed. -/
def openKeys (r : Request τ) : Activity τ (Keys τ) := do
  let map ← r.keyMap true
  let w ← get
  return .start map w.around.typed

/-- A session on a terminal. -/
def lifecycle (r : Request τ) :
    Lifecycle (Activity τ) (Array UInt8) Screen (Option (Bell τ)) Machine (Keys τ)
      (Pacer τ (State τ)) where
  load := r.loadProgram
  openScreen := openScreen r
  openSound := openSound r
  build := Request.buildMachine
  openKeys _ := openKeys r
  pace := pace r host
  run := run host
  closeKeys _ := return ()
  closeSound _ := return ()
  closeScreen screen := call screen.close

end Terminal

end Chip8.Session
