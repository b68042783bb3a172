/-!
# Chip8.Proofs.Byte — numbers cut down to bytes

Memory and palettes take any whole number for a byte and keep its low eight bits. These are
its remainder by 256, also of a number below zero, and a number that was a byte is kept.
-/

namespace Chip8.Byte

/-- The low eight bits of a number. -/
theorem toNat_ofInt (n : Int) : ((UInt8.ofInt n).toNat : Int) = n % 256 := by
  rw [UInt8.ofInt, UInt8.toNat_ofNat']
  omega

/-- A byte is the low eight bits of its number. -/
theorem ofInt_toNat (byte : UInt8) : UInt8.ofInt byte.toNat = byte := by
  -- Bytes are told apart by their numbers, and this one is small enough to be its own
  -- remainder.
  apply UInt8.toNat_inj.mp
  have hlt := byte.toNat_lt
  have hcut := toNat_ofInt byte.toNat
  omega

end Chip8.Byte
