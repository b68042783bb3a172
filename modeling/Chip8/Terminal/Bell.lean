import Chip8.Terminal.Call
import Chip8.Time

/-!
# Chip8.Terminal.Bell — beeps by the terminal's bell

The machine asks for a beep in every turn while its sound timer runs, but a bell
cannot be stopped once it rings. So a beep that follows the one before closely
belongs to the same tone and does not ring again.
-/

namespace Chip8.Terminal

/-- Beeps that are no further apart than this are one tone. -/
def toneGap {τ : Type} [Time τ] : τ := Time.fraction 1 10

/-- The sound of a terminal. -/
structure Bell (τ : Type) where
  /-- How many beeps were asked for. -/
  beeps : Nat
  /-- When the last one was. -/
  last : Option τ

namespace Bell

variable {τ : Type} [Time τ]

/-- No beep so far. -/
def silent : Bell τ := ⟨0, none⟩

/-- Whether a beep at `now` starts a tone. -/
def startsTone (b : Bell τ) (now : τ) : Bool :=
  match b.last with
  | none => true
  | some last => Time.lt toneGap (Time.sub now last)

/-- A beep at the moment `now`. -/
def beep (b : Bell τ) (now : τ) : Bell τ × List Call :=
  (⟨b.beeps + 1, some now⟩, if b.startsTone now then [.bell] else [])

end Bell

end Chip8.Terminal
