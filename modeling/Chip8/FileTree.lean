import Chip8.FileName

/-!
# Chip8.FileTree — files by name

A tree of directories and files, seen from the directory that names are relative
to. `FileTree.read` follows a name component by component and gives the bytes of
the file that it leads to, or the first reason why it leads to none. All of this
is done with the bytes of names:

* A name is limited in length as a whole, and so is each component.
* Only a directory has something below it, and only a file can be read.
* Empty components and single dots stay where they are, two dots go up. There
  are directories above, in which there is only what was put there.

`FileTree.insert` puts a file or a directory under a name, with the directories
that lead there.
-/

namespace Chip8

/-- Why a file cannot be read. -/
inductive FileError where
  | notFound
  | isDirectory
  | notDirectory
  | nameTooLong
  /-- No file is open under a number. -/
  | notOpen
  /-- A reason that only the system knows. -/
  | other (reason : String)
deriving DecidableEq, Repr

/-- The report of a failure. -/
def FileError.message : FileError → String
  | notFound => "No such file or directory"
  | isDirectory => "Is a directory"
  | notDirectory => "Not a directory"
  | nameTooLong => "File name too long"
  | notOpen => "Bad file descriptor"
  | other reason => reason

namespace FileTree

/-- What stands at a place. -/
inductive Entry where
  | file (bytes : Array UInt8)
  | directory
deriving DecidableEq, Repr

/-- A component of a name, in bytes. -/
abbrev Component := List UInt8

/-- A place, told by the way that leads there without detours. -/
structure Place where
  /-- How many directories the way first goes up from the one that names are
  relative to. Nothing stands for the topmost directory of the system. -/
  up : Option Nat
  /-- The components that the way then goes down. -/
  down : List Component
deriving DecidableEq, Repr

end FileTree

/-- Files and directories at their places, the newest first. -/
structure FileTree where
  entries : List (FileTree.Place × FileTree.Entry)

namespace FileTree

/-- A name with its end has to fit into this many bytes. -/
def nameRoom : Nat := 4096

/-- The most bytes that a component of a name may have. -/
def maxComponent : Nat := 255

/-- Nothing. -/
def empty : FileTree := ⟨[]⟩

/-- The byte that stands between the components of a name. -/
def separator : UInt8 := 0x2F

/-- The component that stays where it is. -/
def dot : Component := FileName.bytes "."

/-- The component that goes up. -/
def dots : Component := FileName.bytes ".."

/-- The components of a name. -/
def components (name : Text) : List Component := (FileName.bytes name).splitOn separator

/-- Whether a component stays where it is. -/
def stays (component : Component) : Bool := component.isEmpty || component == dot

/-! ## Places -/

/-- The place that a name starts from. -/
def Place.origin (name : Text) : Place :=
  ⟨if name.head? = some (.char '/') then none else some 0, []⟩

/-- The directory that a place is in. The topmost one is in itself. -/
def Place.parent (p : Place) : Place :=
  if p.down.isEmpty then { p with up := p.up.map (· + 1) } else { p with down := p.down.dropLast }

/-- The place of a component in a directory. -/
def Place.child (p : Place) (component : Component) : Place :=
  { p with down := p.down ++ [component] }

/-- What stands at a place. -/
def find? (t : FileTree) (place : Place) : Option Entry := t.entries.lookup place

/-! ## Writing -/

/-- Puts an entry at a place, instead of any that is there. -/
def put (t : FileTree) (place : Place) (entry : Entry) : FileTree :=
  ⟨(place, entry) :: t.entries⟩

/-- Makes a directory where there is nothing. -/
def ensureDirectory (t : FileTree) (place : Place) : FileTree :=
  if (t.find? place).isSome then t else t.put place .directory

/-- Puts an entry where components lead to from a place, with directories on the
way. -/
def make (t : FileTree) (entry : Entry) : Place → List Component → FileTree
  | place, [] => t.put place entry
  | place, component :: rest =>
    let t := t.ensureDirectory place
    if stays component then t.make entry place rest
    else if component = dots then t.make entry place.parent rest
    else t.make entry (place.child component) rest

/-- Puts an entry under a name. -/
def insert (t : FileTree) (name : Text) (entry : Entry) : FileTree :=
  t.make entry (.origin name) (components name)

/-! ## Reading -/

/-- Follows components from a directory on. -/
def follow (t : FileTree) : Place → List Component → Except FileError (Array UInt8)
  | _, [] => .error .isDirectory
  | place, component :: rest =>
    if stays component then t.follow place rest
    else if component = dots then t.follow place.parent rest
    else if maxComponent < component.length then .error .nameTooLong
    else
      let below := place.child component
      match t.find? below with
      | none => .error .notFound
      | some .directory => t.follow below rest
      -- Nothing is below a file, not even an empty component.
      | some (.file bytes) => if rest.isEmpty then .ok bytes else .error .notDirectory

/-- The bytes of the file with a name. -/
def read (t : FileTree) (name : Text) : Except FileError (Array UInt8) :=
  if name.isEmpty then .error .notFound
  else if nameRoom ≤ (FileName.bytes name).length then .error .nameTooLong
  else t.follow (.origin name) (components name)

end FileTree

end Chip8
