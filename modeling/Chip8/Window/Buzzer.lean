import Chip8.Room
import Chip8.Time
import Chip8.Window.Call

/-!
# Chip8.Window.Buzzer — beeps by a mixer

The buzzer is on or off, so its sound is one period of a square wave, played
over and over. A beep starts a short burst of it, unless one is still playing:
the tone goes on for as long as beeps keep coming.
-/

namespace Chip8.Window

/-- How many samples are played in a second. -/
def sampleRate : Nat := 44100

/-- How many periods of the tone there are in a second. -/
def buzzerFrequency : Int := 440

/-- How long a burst lasts, in milliseconds. -/
def burstLength : Nat := 50

/-- How loud the buzzer is, in percent. -/
def buzzerVolume : Nat := 10

/-! ## The wave -/

/-- Why there is no wave of some frequency. -/
inductive WaveError where
  | zeroFrequency
  /-- The frequency is too large a number to divide by. -/
  | hugeFrequency
  /-- The frequency is so small that the period is infinite. -/
  | endlessPeriod
  /-- The frequency is no number, so the period is none either. -/
  | noPeriod
  /-- There is no room for the samples of a period. -/
  | noRoom (cause : RoomError)
deriving DecidableEq, Repr

/-- The report of a frequency that has no wave. -/
def WaveError.message : WaveError → String
  | zeroFrequency => "There is no wave of frequency zero"
  | hugeFrequency => "The frequency is too large"
  | endlessPeriod => "The period is too long"
  | noPeriod => "The period is no number"
  | noRoom cause => cause.message

/-- One period of a square wave of so many samples: the first half is high, the
second low. -/
def squareWave (period : Nat) : List UInt8 :=
  List.replicate (period / 2) 0xFF ++ List.replicate (period - period / 2) 0

/-- The number that a frequency is divided by. -/
def divisor (frequency : Rate Float) : Except WaveError Float :=
  match frequency with
  | .measured x => .ok x
  | .whole n =>
    match Time.ofWhole? n with
    | some x => .ok x
    | none => .error .hugeFrequency

/-- A measured number without its fraction, if it is then countable. -/
def wholePart? (x : Float) : Option Int :=
  let bound := Float.ofInt 0x8000000000000000
  if -bound ≤ x ∧ x < bound then some x.toInt64.toInt else none

/-- How many whole samples a period of a frequency has. -/
def periodOf (frequency : Rate Float) : Except WaveError Nat := do
  let x ← divisor frequency
  if x == 0.0 then throw .zeroFrequency
  let period := Float.ofNat sampleRate / x
  if period.isNaN then throw .noPeriod
  if period.isInf then throw .endlessPeriod
  match wholePart? period with
  | none => throw (.noRoom .uncountable)
  | some samples =>
    match room samples with
    | .error cause => throw (.noRoom cause)
    | .ok size => return size

/-- One period of a square wave of some frequency. -/
def wave (frequency : Rate Float) : Except WaveError (List UInt8) :=
  (periodOf frequency).map squareWave

/-! ## The buzzer -/

/-- The sound of a window. -/
structure Buzzer where
  /-- How many beeps were asked for. -/
  beeps : Nat
  /-- Whether a burst was ever started. -/
  started : Bool
deriving DecidableEq, Repr

namespace Buzzer

/-- Opens the mixer and makes the sound. -/
def start : Buzzer × List Call :=
  (⟨0, false⟩,
    [.requestMixer sampleRate 8 1 1 0, .openMixer,
      .sound (squareWave (sampleRate / buzzerFrequency.toNat)), .setVolume buzzerVolume])

/-- A beep. `busy` holds the mixer's answers to the question whether a burst is
playing, which is asked once there has been one. Gives the answers that are
left. -/
def beep (b : Buzzer) (busy : List Bool) : Buzzer × List Call × List Bool :=
  let b' : Buzzer := ⟨b.beeps + 1, true⟩
  if b.started then
    -- While a burst is playing none is started.
    if busy.headD false then (b', [], busy.tail)
    else (b', [.play (-1) burstLength], busy.tail)
  else (b', [.play (-1) burstLength], busy)

/-- Stops the sound and closes the mixer. -/
def close (_ : Buzzer) : List Call := [.stop, .closeMixer]

end Buzzer

end Chip8.Window
