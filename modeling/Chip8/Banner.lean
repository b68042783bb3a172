/-!
# Chip8.Banner — how the emulator introduces itself
-/

namespace Chip8.Banner

/-- The emulator's name, also the title of its window. -/
def name : String := "Chip8VM Emulator"

def version : String := "1.0.0"

/-- The notice that follows the introduction at start-up. -/
def notice : String :=
  "Copyright (C) 2022 Gregory Maynard-Hoare, licensed under GNU Affero General Public License v3.0"

/-- Name and version, as they open the first line and the report of a halt. -/
def intro : String := name ++ " V" ++ version ++ " -- "

/-- The line that is printed before anything else happens. -/
def greeting : String := intro ++ notice

end Chip8.Banner
