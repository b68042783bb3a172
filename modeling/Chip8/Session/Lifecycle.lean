/-!
# Chip8.Session.Lifecycle — the stages of a session

A session goes through seven stages: it loads the program, opens the screen and
the sound, builds the machine, opens the keys, sets the pace, and runs. The
stages may fail, and `Lifecycle.run` says what happens then:

* No stage comes after one that fails, and the failure is that of the session.
* Whatever was opened is closed again, the newest first, also after a failure.
-/

namespace Chip8

/-- The stages of a session as actions, each with what it gives to later ones. -/
structure Lifecycle (m : Type → Type) (Program Screen Sound Built Keys Paced : Type) where
  load : m Program
  openScreen : m Screen
  openSound : m Sound
  build : Program → m Built
  openKeys : Screen → m Keys
  pace : Screen → Sound → Built → Keys → m Paced
  run : Paced → m Unit
  closeKeys : Keys → m Unit
  closeSound : Sound → m Unit
  closeScreen : Screen → m Unit

namespace Lifecycle

variable {m n : Type → Type} {Program Screen Sound Built Keys Paced : Type}

/-- The same stages as actions of another kind. -/
def lift (f : {α : Type} → m α → n α) (l : Lifecycle m Program Screen Sound Built Keys Paced) :
    Lifecycle n Program Screen Sound Built Keys Paced where
  load := f l.load
  openScreen := f l.openScreen
  openSound := f l.openSound
  build program := f (l.build program)
  openKeys screen := f (l.openKeys screen)
  pace screen sound built keys := f (l.pace screen sound built keys)
  run paced := f (l.run paced)
  closeKeys keys := f (l.closeKeys keys)
  closeSound sound := f (l.closeSound sound)
  closeScreen screen := f (l.closeScreen screen)

/-- Goes through the stages. -/
def perform [Monad m] [MonadFinally m] (l : Lifecycle m Program Screen Sound Built Keys Paced) :
    m Unit := do
  let program ← l.load
  let screen ← l.openScreen
  try
    let sound ← l.openSound
    try
      let built ← l.build program
      let keys ← l.openKeys screen
      try
        let paced ← l.pace screen sound built keys
        l.run paced
      finally
        l.closeKeys keys
    finally
      l.closeSound sound
  finally
    l.closeScreen screen

end Lifecycle

end Chip8
