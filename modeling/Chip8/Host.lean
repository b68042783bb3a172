import Chip8.Banner
import Chip8.Keypad
import Chip8.Value.Written

/-!
# Chip8.Host — what a running machine asks of its surroundings

A running machine wants its picture shown, its beeps sounded and its keys told.
`Host` lists these services over a state of any type, so that the same run goes
on a window, on a terminal, or in front of a record that a theorem looks at.
-/

namespace Chip8

/-- How many pictures were shown, and how many turns completed, since the last
report. -/
structure Report where
  frames : Value
  turns : Value
deriving Repr

/-- A report as the title of a window. -/
def Report.title (r : Report) : Text :=
  Banner.name ++ " - " ++ r.frames.written ++ " FPS, " ++ r.turns.written ++ " OPS"

/-- The report of counts. -/
def Report.ofCounts (frames turns : Nat) : Report := ⟨.whole frames, .whole turns⟩

/-- The services that a machine runs on. -/
structure Host (σ : Type) where
  /-- Takes in what the user did, and says whether that was to quit. -/
  pump : σ → σ × Bool
  /-- Tells which keys are held. -/
  keys : σ → σ × Keypad
  report : σ → Report → σ
  /-- Takes a new picture, one byte for each pixel. -/
  draw : σ → Array UInt8 → σ
  /-- Brings what is shown up to date. -/
  refresh : σ → σ
  beep : σ → σ
  /-- Prints a line of a trace. -/
  print : σ → Text → σ

end Chip8
