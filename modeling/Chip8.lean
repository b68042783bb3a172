import Chip8.Banner
import Chip8.CallStack
import Chip8.CommandLine.Argument
import Chip8.CommandLine.Parse
import Chip8.CommandLine.Switch
import Chip8.Display
import Chip8.Fault
import Chip8.FileName
import Chip8.FileTree
import Chip8.Font
import Chip8.Headless
import Chip8.Host
import Chip8.Instruction
import Chip8.Instruction.Mnemonic
import Chip8.KeyMap
import Chip8.KeyQueue
import Chip8.Keypad
import Chip8.Machine.Basic
import Chip8.Machine.Exec
import Chip8.Machine.Step
import Chip8.Machine.Trace
import Chip8.Main
import Chip8.Memory
import Chip8.Options
import Chip8.Pacer
import Chip8.ProgramFile
import Chip8.Proofs.Byte
import Chip8.Proofs.Display.Collision
import Chip8.Proofs.Display.Overlay
import Chip8.Proofs.Display.Parity
import Chip8.Proofs.Display.Pixels
import Chip8.Proofs.History
import Chip8.Proofs.Instruction.Assembly
import Chip8.Proofs.Instruction.Encoding
import Chip8.Proofs.KeyMap.Reading
import Chip8.Proofs.KeyMap.RoundTrip
import Chip8.Proofs.Machine.Absorption
import Chip8.Proofs.Machine.Arithmetic
import Chip8.Proofs.Machine.Blocks
import Chip8.Proofs.Machine.Bounds
import Chip8.Proofs.Machine.Calls
import Chip8.Proofs.Machine.Changes
import Chip8.Proofs.Machine.Counter
import Chip8.Proofs.Machine.Drawing
import Chip8.Proofs.Machine.Dumping
import Chip8.Proofs.Machine.Effect
import Chip8.Proofs.Machine.Faulting
import Chip8.Proofs.Machine.Following
import Chip8.Proofs.Machine.Invariant
import Chip8.Proofs.Machine.Loading
import Chip8.Proofs.Machine.Naming
import Chip8.Proofs.Machine.Operation
import Chip8.Proofs.Machine.Overreach
import Chip8.Proofs.Machine.Reset
import Chip8.Proofs.Machine.Sprite
import Chip8.Proofs.Machine.Strokes
import Chip8.Proofs.Machine.Timers
import Chip8.Proofs.Machine.Tracing
import Chip8.Proofs.Machine.Turn
import Chip8.Proofs.Machine.Unseen
import Chip8.Proofs.Machine.Waiting
import Chip8.Proofs.Memory.Recall
import Chip8.Proofs.Memory.Storing
import Chip8.Proofs.Pacer.Chronicle
import Chip8.Proofs.Pacer.Counting
import Chip8.Proofs.Pacer.Frames
import Chip8.Proofs.Pacer.Schedule
import Chip8.Proofs.Pacer.Spacing
import Chip8.Proofs.ProgramFile.Reading
import Chip8.Proofs.Session.Defaults
import Chip8.Proofs.Session.Release
import Chip8.Proofs.Session.Stages
import Chip8.Proofs.Terminal.Holding
import Chip8.Proofs.Terminal.Interleaving
import Chip8.Proofs.Terminal.Letters
import Chip8.Proofs.Terminal.Pad
import Chip8.Proofs.Terminal.Repaint
import Chip8.Proofs.Terminal.Typing
import Chip8.Proofs.Text.Fields
import Chip8.Proofs.Text.Hexadecimal
import Chip8.Proofs.Text.Numeral
import Chip8.Proofs.Text.Printing
import Chip8.Proofs.Text.Separation
import Chip8.Proofs.Window.Colours
import Chip8.Proofs.Window.Latching
import Chip8.Proofs.Window.Presenting
import Chip8.RandomSource
import Chip8.Room
import Chip8.Session
import Chip8.Session.Failure
import Chip8.Session.FrontEnd
import Chip8.Session.Lifecycle
import Chip8.Session.World
import Chip8.Setting
import Chip8.Terminal.Bell
import Chip8.Terminal.Call
import Chip8.Terminal.KeyReader
import Chip8.Terminal.Keys
import Chip8.Terminal.Screen
import Chip8.Text.Basic
import Chip8.Text.Blank
import Chip8.Text.DecimalDigit
import Chip8.Text.Fraction
import Chip8.Text.Hexadecimal
import Chip8.Text.Numeral
import Chip8.Text.Quoted
import Chip8.Text.Unprintable
import Chip8.Time
import Chip8.Value
import Chip8.Value.Written
import Chip8.Window.Buzzer
import Chip8.Window.Call
import Chip8.Window.Keys
import Chip8.Window.Palette
import Chip8.Window.Screen
