import Chip8.FileTree
import Chip8.Machine.Basic
import Chip8.Room
import Chip8.Value

/-!
# Chip8.ProgramFile — the program in a file

A program file has no header: its bytes are the program. `ProgramFile.load`
reads one through the function that the host reads files with. One byte more
than the limit is asked for, so that a file that is too large shows without
being read as a whole.

A file may also be given by a number, under which the host would have it open.
None is open that way here.
-/

namespace Chip8.ProgramFile

/-- Where a program is. -/
inductive Source where
  | named (name : Text)
  /-- In the file that is open under a number. -/
  | numbered (number : Int)
deriving DecidableEq, Repr

/-- The source that a value names. Numbers of open files have 32 bits. -/
def Source.ofValue? (v : Value) : Option Source :=
  match v.text?, v.whole? with
  | some name, _ => some (.named name)
  | none, some n => if -0x80000000 ≤ n ∧ n < 0x80000000 then some (.numbered n) else none
  | none, none => none

/-- Why there is no program. -/
inductive Error where
  /-- The name holds halves of characters that have no bytes. -/
  | strayInName (halves : FileName.Stray)
  /-- The name holds a character that ends names. -/
  | nulInName
  /-- No file is ever open under the number. -/
  | negativeNumber
  | unreadable (name : Text) (cause : FileError)
  | tooLarge (name : Text) (limit : Int)
  /-- There is no room for as many bytes as are asked for. -/
  | noRoom (cause : RoomError)
  /-- No block of bytes may be as long as the one that is asked for. -/
  | longBlock
deriving DecidableEq, Repr

/-- The report of a failure. -/
def Error.message : Error → Text
  | strayInName halves => halves.message
  | nulInName => "The name of the file contains a NUL character"
  | negativeNumber => "The number of the file is negative"
  | unreadable name cause => "Unable to read '" ++ name ++ "': " ++ cause.message
  | tooLarge name limit =>
    "'" ++ name ++ "' is larger than the " ++ toString limit ++ " bytes available for programs"
  | noRoom cause => cause.message
  | longBlock => "The number of bytes to read is too large for one block"

/-- How many bytes a host keeps beside those of a block. -/
def blockOverhead : Int := 33

/-- The first `count` bytes of a file; all of them if `count` is `-1`. A block
and what is kept beside it have to be countable together. -/
def firstBytes (bytes : Array UInt8) (count : Int) : Except Error (Array UInt8) :=
  if count = -1 then .ok bytes
  else if Countable count ∧ ¬ Countable (count + blockOverhead) then .error .longBlock
  else
    match room count with
    | .error cause => .error (.noRoom cause)
    | .ok size => .ok (bytes.extract 0 size)

/-- The program in the file with a name, of at most `limit` bytes. The first
bytes of an open file are those that `first` gives. -/
def loadNamed (first : Array UInt8 → Int → Except Error (Array UInt8))
    (read : Text → Except FileError (Array UInt8)) (name : Text) (limit : Int) :
    Except Error (Array UInt8) :=
  match FileName.stray? name with
  | some halves => .error (.strayInName halves)
  | none =>
    if name.contains (.char '\x00') then .error .nulInName
    else
      match read name with
      | .error cause => .error (.unreadable name cause)
      | .ok bytes => do
        let program ← first bytes (limit + 1)
        if limit < program.size then throw (.tooLarge name limit)
        return program

/-- The program at a source, of at most `limit` bytes. -/
def load (read : Text → Except FileError (Array UInt8)) (source : Source) (limit : Int) :
    Except Error (Array UInt8) :=
  match source with
  | .named name => loadNamed firstBytes read name limit
  | .numbered n =>
    if n < 0 then .error .negativeNumber else .error (.unreadable (toString n) .notOpen)

end Chip8.ProgramFile
