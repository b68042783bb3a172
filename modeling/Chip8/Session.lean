import Chip8.Session.FrontEnd

/-!
# Chip8.Session — from a request to its end

A session greets, chooses a front end, and goes through its lifecycle on it.
`Session.play` is a whole session: from what is asked for and what the
surroundings will answer to what was called, what was printed, and how it ended.
-/

namespace Chip8.Session

variable {τ : Type} [Time τ]

/-- The front end that is used: the one that is asked for if it is there, or the
first that is there. None is used where something else is asked for. -/
def chooseFrontEnd (asked : Setting FrontEndKind) (hasWindows hasTerminal : Bool) :
    Except Failure (Option FrontEndKind) :=
  match asked with
  | .value .window => if hasWindows then .ok (some .window) else .error .noWindows
  | .value .terminal => if hasTerminal then .ok (some .terminal) else .error .noTerminal
  | .value .headless => .ok (some .headless)
  | .other .nothing =>
    if hasWindows then .ok (some .window)
    else if hasTerminal then .ok (some .terminal)
    else .error .noFrontEnd
  | .other _ => .ok none

/-- Goes through the lifecycle on a front end. Without one, the session ends when
the screen is to be opened. -/
def performOn (r : Request τ) : Option FrontEndKind → Activity τ Unit
  | some .window => (Window.lifecycle r).perform
  | some .terminal => (Terminal.lifecycle r).perform
  | some .headless => (Headless.lifecycle r).perform
  | none => do
    let _ ← r.loadProgram
    throw .unknownFrontEnd

omit [Time τ] in
/-- Greets, and chooses a front end. -/
def enter (r : Request τ) : Activity τ (Option FrontEndKind) := do
  modify (·.say Banner.greeting)
  r.require [.frontEnd, .mute]
  let w ← get
  chooseFrontEnd r.options.frontEnd w.around.hasWindows w.around.hasTerminal

/-- A session. -/
def session (r : Request τ) : Activity τ Unit := do
  let kind ← enter r
  performOn r kind

/-- What a session leaves behind. -/
structure Outcome (τ : Type) where
  calls : Array HostCall
  /-- The lines printed. -/
  printed : Array Text
  /-- The readings of the clock that were not needed. -/
  unread : List τ
  /-- Why the session failed, if it did. -/
  failure : Option Failure

/-- A whole session. -/
def play (r : Request τ) (around : Surroundings τ) : Outcome τ :=
  let (result, w) := (session r).run (World.start around)
  let failure :=
    match result with
    | .ok _ => none
    | .error failure => some failure
  ⟨w.calls, w.printed, w.around.readings, failure⟩

end Chip8.Session
