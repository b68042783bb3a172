import Chip8.Host
import Chip8.Machine.Step
import Chip8.Time

/-!
# Chip8.Pacer — running a machine by the clock

The machine has no idea how fast it should run. The pacer reads the clock and
decides at each turn what is due:

* once in a second, a report of how many pictures were shown and how many turns
  completed;
* sixty times in a second, a look at what the user did and an update of what is
  shown;
* always one turn of the machine, with the keys that are held at that moment.

Then it reads the clock until the next turn may start. `Pacer.react` is what one
reading leads to, and `Pacer.run` goes through a list of them. The picture is
handed over only if it has changed.
-/

namespace Chip8

/-- A machine that runs on a host. -/
structure Pacer (τ σ : Type) where
  machine : Machine
  host : σ
  /-- Whether every instruction is printed. -/
  live : Bool
  /-- How long a turn lasts at least, if there is a limit. -/
  interval : Option τ
  /-- When the next update of what is shown is due. -/
  nextDisplay : τ
  /-- When the next report is due. -/
  nextReport : τ
  /-- How often what is shown was updated since the last report. -/
  frames : Nat
  /-- How many turns completed since the last report. -/
  turns : Nat

namespace Pacer

/-- Why a run comes to its end. -/
inductive Ending where
  /-- The user wants to quit. -/
  | quit
  | fault (cause : Fault)
  /-- The clock shows an infinite time, after which no report can be due. -/
  | endlessTime
  /-- The clock gives no more readings. -/
  | clockStopped
deriving DecidableEq, Repr

/-- The rate is too large a number to divide by. -/
structure RateError where
deriving DecidableEq, Repr

/-- The report of a rate that cannot be used. -/
def RateError.message (_ : RateError) : String := "The number of turns in a second is too large"

/-- Turns in a second unless another rate is given. -/
def defaultRate : Int := 500

variable {τ σ : Type} [Time τ]

/-! ## The start -/

/-- How long a turn lasts at a rate. There is no limit at a rate of zero or
less. -/
def intervalAt : Rate τ → Except RateError (Option τ)
  | .whole n =>
    if n ≤ 0 then .ok none
    else
      match Time.ofWhole? n with
      | none => .error ⟨⟩
      | some x => .ok (some (Time.part x))
  | .measured x => .ok (if Time.le x Time.zero then none else some (Time.part x))

/-- How often updates are due. -/
def displayInterval : τ := Time.fraction 1 60

/-- Reports to the host. -/
def report (H : Host σ) (p : Pacer τ σ) (r : Report) : Pacer τ σ :=
  { p with host := H.report p.host r }

/-- A machine that is about to run. A report of nothing opens the run. -/
def start (H : Host σ) (machine : Machine) (host : σ) (live : Bool)
    (rate : Option (Rate τ)) : Except RateError (Pacer τ σ) := do
  let interval ← intervalAt (rate.getD (.whole defaultRate))
  -- Both an update and a report are due at zero, and so at the first reading.
  let p : Pacer τ σ := ⟨machine, host, live, interval, Time.zero, Time.zero, 0, 0⟩
  return p.report H (.ofCounts 0 0)

/-! ## A turn -/

/-- Hands the picture over if it has changed. -/
def handOver (H : Host σ) (p : Pacer τ σ) : Pacer τ σ :=
  if p.machine.display.changed then
    { p with
      host := H.draw p.host p.machine.display.frame
      machine := p.machine.settleDisplay }
  else p

/-- Brings what is shown up to date. -/
def refresh (H : Host σ) (p : Pacer τ σ) : Pacer τ σ :=
  let p := p.handOver H
  { p with host := H.refresh p.host }

/-- Prints the line of the next turn if every instruction is printed. -/
def printLine (H : Host σ) (p : Pacer τ σ) : Pacer τ σ :=
  -- The line is that of the machine before its step, and a word that asks for nothing has
  -- none.
  match if p.live then p.machine.stepLine? else none with
  | some line => { p with host := H.print p.host line }
  | none => p

/-- Lets the machine take a turn, and sounds a beep if it asks for one. -/
def step (H : Host σ) (p : Pacer τ σ) : Pacer τ σ × Option Fault :=
  let ⟨machine, fault⟩ := p.machine.step
  -- A step counts one beep at most, so the host is asked for one or none.
  let host := if p.machine.beeps < machine.beeps then H.beep p.host else p.host
  ({ p with machine := machine, host := host }, fault)

/-- Tells the machine which keys are held. -/
def holdKeys (H : Host σ) (p : Pacer τ σ) : Pacer τ σ :=
  let (host, keys) := H.keys p.host
  { p with machine := p.machine.hold keys, host := host }

/-- One turn of the machine, with the keys that are held now. -/
def cycle (H : Host σ) (p : Pacer τ σ) : Pacer τ σ × Option Fault :=
  match ((p.holdKeys H).printLine H).step H with
  | (p, some fault) => (p, some fault)
  | (p, none) => ({ p with turns := p.turns + 1 }, none)

/-- Reports if a report is due at the moment `now`, and starts counting again.
Says whether `now` is endless, so that the next report has no moment. -/
def reportIfDue (H : Host σ) (p : Pacer τ σ) (now : τ) : Pacer τ σ × Bool :=
  if Time.le p.nextReport now then
    match Time.nextSecond? now with
    | none => (p, true)
    | some next =>
      let p := p.report H (.ofCounts p.frames p.turns)
      ({ p with nextReport := next, frames := 0, turns := 0 }, false)
  else (p, false)

/-- Takes in what the user did and brings what is shown up to date, if that is
due at the moment `now`. Says whether the user wants to quit. -/
def displayIfDue (H : Host σ) (p : Pacer τ σ) (now : τ) : Pacer τ σ × Bool :=
  if Time.le p.nextDisplay now then
    let (host, quit) := H.pump p.host
    let p := { p with host := host }
    -- What was drawn is shown before the run ends, but this update is not counted.
    if quit then (p.refresh H, true)
    else
      let p := { p with nextDisplay := Time.add now displayInterval }.refresh H
      ({ p with frames := p.frames + 1 }, false)
  else (p, false)

/-- What is due at the moment `now`. Gives an ending if the run is over. -/
def turn (H : Host σ) (p : Pacer τ σ) (now : τ) : Pacer τ σ × Option Ending :=
  match p.reportIfDue H now with
  | (p, true) => (p, some .endlessTime)
  | (p, false) =>
    match p.displayIfDue H now with
    | (p, true) => (p, some .quit)
    | (p, false) =>
      match p.cycle H with
      | (p, some fault) => (p, some (.fault fault))
      | (p, none) => (p, none)

/-! ## A run -/

/-- What a run does with the next reading of the clock. -/
inductive Phase (τ : Type) where
  /-- It starts a turn. -/
  | ready
  /-- It compares the reading with the moment when the next turn may start. -/
  | waiting (deadline : τ)

/-- How a run goes on after a turn that started at the moment `now`. -/
def phaseAfter (p : Pacer τ σ) (now : τ) : Phase τ :=
  match p.interval with
  | none => .ready
  | some interval => .waiting (Time.add now interval)

/-- What a reading of the clock leads to. -/
def react (H : Host σ) (p : Pacer τ σ) (phase : Phase τ) (now : τ) :
    Pacer τ σ × Except Ending (Phase τ) :=
  match phase with
  -- A reading that ends a wait is used up: the turn starts with the next one.
  | .waiting deadline => (p, .ok (if Time.lt now deadline then phase else .ready))
  | .ready =>
    match p.turn H now with
    | (p, some ending) => (p, .error ending)
    | (p, none) => (p, .ok (p.phaseAfter now))

/-- How a run ended. -/
structure Outcome (τ σ : Type) where
  pacer : Pacer τ σ
  ending : Ending
  /-- The readings of the clock that were not needed. -/
  unread : List τ

/-- Goes through readings of the clock until the run is over. -/
def runFrom (H : Host σ) (p : Pacer τ σ) (phase : Phase τ) : List τ → Outcome τ σ
  | [] => ⟨p, .clockStopped, []⟩
  | now :: rest =>
    match p.react H phase now with
    | (p, .error ending) => ⟨p, ending, rest⟩
    | (p, .ok phase) => p.runFrom H phase rest

/-- Runs the machine while the clock gives readings. -/
def run (H : Host σ) (p : Pacer τ σ) (readings : List τ) : Outcome τ σ :=
  p.runFrom H .ready readings

end Pacer

end Chip8
