import Chip8.Fault
import Chip8.Room

/-!
# Chip8.Memory — a bank of bytes

A flat bank of bytes with addresses `0` to `size - 1`:

* `read`, `readBlock` — one byte, or the bytes from an address on.
* `write`, `writeBlock` — store one byte, or a block of them.
* `writeEach` — store bytes one after the other and stop at the first that has
  no place.

Addresses never wrap. An access outside the bank is a fault and stores
nothing; a block is checked at both ends before its first byte is stored.
-/

namespace Chip8

/-- A bank of bytes. -/
structure Memory where
  bytes : Array UInt8
deriving DecidableEq

namespace Memory

/-- A bank of `size` zeros. -/
def zeroed (size : Nat) : Memory := ⟨Array.replicate size 0⟩

/-- A bank of `size` zeros, if there is room for it. -/
def ofSize (size : Int) : Except RoomError Memory := (room size).map zeroed

/-- How many bytes the bank has. -/
def size (m : Memory) : Nat := m.bytes.size

/-- The highest address, `-1` in an empty bank. -/
def top (m : Memory) : Int := (m.size : Int) - 1

/-- Whether `address` is an address of the bank. -/
def Holds (m : Memory) (address : Int) : Prop := 0 ≤ address ∧ address ≤ m.top

instance (m : Memory) (address : Int) : Decidable (m.Holds address) :=
  inferInstanceAs (Decidable (_ ∧ _))

/-- Faults unless `address` is an address of the bank. -/
def check (m : Memory) (address : Int) : Except Fault Unit :=
  if m.Holds address then .ok () else .error (.outsideMemory address m.top)

/-- The byte at `address`. -/
def read (m : Memory) (address : Int) : Except Fault UInt8 := do
  m.check address
  -- The check has passed, so the default is never used.
  return m.bytes.getD address.toNat 0

/-- The `count` bytes from `address` on. Both the first and the last address
have to be in the bank; a count below one that passes gives no byte. -/
def readBlock (m : Memory) (address count : Int) : Except Fault (Array UInt8) := do
  m.check address
  m.check (address + count - 1)
  return m.bytes.extract address.toNat (address + count).toNat

/-- Stores the low eight bits of `value` at `address`. -/
def write (m : Memory) (address value : Int) : Except Fault Memory := do
  m.check address
  return ⟨m.bytes.setIfInBounds address.toNat (UInt8.ofInt value)⟩

/-- Stores `block` from `address` on, all of it or nothing. An empty block may
be stored anywhere. -/
def writeBlock (m : Memory) (address : Int) (block : Array UInt8) : Except Fault Memory :=
  if block.isEmpty then .ok m
  else do
    -- Both ends are checked before anything is stored.
    m.check address
    m.check (address + block.size - 1)
    let start := address.toNat
    return ⟨m.bytes.extract 0 start ++ block ++ m.bytes.extract (start + block.size) m.size⟩

/-- Stores bytes at `address`, `address + 1` and so on, up to the first one
that has no place in the bank. -/
def writeEach (m : Memory) (address : Int) : List UInt8 → Memory × Option Fault
  | [] => (m, none)
  | byte :: rest =>
    match m.write address byte.toNat with
    | .error fault => (m, some fault)
    | .ok m' => m'.writeEach (address + 1) rest

/-- Zeros everywhere. -/
def clear (m : Memory) : Memory := zeroed m.size

end Memory

end Chip8
