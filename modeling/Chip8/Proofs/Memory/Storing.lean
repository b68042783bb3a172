import Chip8.Memory
import Chip8.Proofs.Byte

/-!
# Chip8.Proofs.Memory.Storing — what a bank holds after a store

The operations on a bank are checks, and behind the checks there are only two
views of it:

* `Memory.byteAt` — the byte at an address, which every read gives.
* `Memory.storing` — the bank with a row of bytes laid over it. Bytes that have
  no place in the bank are dropped.

`writeEach_eq` and `writeBlock_eq_ok` say that both ways to store a row of bytes
end in that bank; they differ only where a part of the row has no place. What a row
that fits makes of a bank is said byte by byte in `Memory.LaidOver`.
-/

namespace Chip8.Memory

variable {m : Memory} {a : Int}

/-- The byte at an address, zero outside the bank. -/
def byteAt (m : Memory) (a : Int) : UInt8 := m.bytes.getD a.toNat 0

/-- The bank with `row` laid over it from the address `a` on. -/
def storing (m : Memory) (a : Int) (row : List UInt8) : Memory :=
  ⟨m.bytes.mapIdx fun k byte =>
    if a ≤ k then (row[(k - a).toNat]?).getD byte else byte⟩

/-! ## Checks -/

/-- A bank holds an address that lies between its ends. -/
theorem holds_iff : m.Holds a ↔ 0 ≤ a ∧ a < m.size := by
  unfold Holds top
  omega

theorem check_eq_ok (h : m.Holds a) : m.check a = .ok () := if_pos h

theorem check_eq_error (h : ¬ m.Holds a) : m.check a = .error (.outsideMemory a m.top) := if_neg h

/-! ## Reads -/

theorem read_eq_ok (h : m.Holds a) : m.read a = .ok (m.byteAt a) := by
  simp only [read, check_eq_ok h]
  rfl

theorem read_eq_error (h : ¬ m.Holds a) : m.read a = .error (.outsideMemory a m.top) := by
  simp only [read, check_eq_error h]
  rfl

/-- A block that lies in the bank is read as its bytes. -/
theorem readBlock_eq_ok {n : Int} (h : m.Holds a) (h' : m.Holds (a + n - 1)) :
    m.readBlock a n = .ok (m.bytes.extract a.toNat (a + n).toNat) := by
  simp only [readBlock, check_eq_ok h, check_eq_ok h']
  rfl

/-- A block that does not lie in the bank is refused at its first end that is
outside. -/
theorem readBlock_eq_error {n : Int} (h : ¬ (m.Holds a ∧ m.Holds (a + n - 1))) :
    m.readBlock a n =
      .error (.outsideMemory (if m.Holds a then a + n - 1 else a) m.top) := by
  by_cases ha : m.Holds a
  · -- The first end is inside, so it is the last one that is refused.
    have hn : ¬ m.Holds (a + n - 1) := fun hn => h ⟨ha, hn⟩
    simp only [readBlock, check_eq_ok ha, check_eq_error hn, if_pos ha]
    rfl
  · simp only [readBlock, check_eq_error ha, if_neg ha]
    rfl

/-- The bytes of a block that was read are those at its addresses. -/
theorem getD_extract {n k : Nat} (ha : 0 ≤ a) (hk : k < n) :
    (m.bytes.extract a.toNat (a + n).toNat).getD k 0 = m.byteAt (a + k) := by
  simp only [byteAt, Array.getD_eq_getD_getElem?, Array.getElem?_extract]
  have hidx : (a + k).toNat = a.toNat + k := by omega
  rw [hidx]
  by_cases hin : k < min (a + n).toNat m.bytes.size - a.toNat
  · -- Within the block and within the bank, and else beyond the end of the bank.
    rw [if_pos hin]
  · rw [if_neg hin, Array.getElem?_eq_none (by omega)]

/-! ## Stores -/

@[simp] theorem size_storing (row : List UInt8) : (m.storing a row).size = m.size := by
  simp [storing, size]

theorem size_zeroed (n : Nat) : (zeroed n).size = n := by
  simp [size, zeroed]

theorem byteAt_zeroed {n : Nat} : (zeroed n).byteAt a = 0 := by
  simp only [byteAt, zeroed, Array.getD_eq_getD_getElem?, Array.getElem?_replicate]
  split <;> rfl

@[simp] theorem top_storing (row : List UInt8) : (m.storing a row).top = m.top := by
  simp [top]

/-- Laying no bytes changes nothing. -/
@[simp] theorem storing_nil : m.storing a [] = m := by
  cases m with
  | mk bytes =>
    simp only [storing, mk.injEq]
    apply Array.ext
    · simp
    · intro k _ _
      simp

/-- After a store, the row is found where it was laid and all else is as it was. -/
theorem byteAt_storing {b : Int} (row : List UInt8) (h : m.Holds b) :
    (m.storing a row).byteAt b =
      if a ≤ b then (row[(b - a).toNat]?).getD (m.byteAt b) else m.byteAt b := by
  obtain ⟨h0, htop⟩ := holds_iff.mp h
  have hlt : b.toNat < m.bytes.size := by
    unfold size at htop
    omega
  -- The address is that of an entry of the bank, so it comes through the cut unchanged.
  have hcast : ((b.toNat : Nat) : Int) = b := Int.toNat_of_nonneg h0
  simp [byteAt, storing, hlt, hcast]

/-- The bank `m'` is `m` with a row of bytes in it: the row is found from the address
`a` on, and every other byte is as it was. -/
structure LaidOver (m : Memory) (a : Int) (row : List UInt8) (m' : Memory) : Prop where
  size : m'.size = m.size
  fits : 0 ≤ a ∧ a + row.length ≤ m.size
  found (k : Nat) (h : k < row.length) : m'.byteAt (a + k) = row[k]
  others (b : Int) (h : m.Holds b) (hout : b < a ∨ a + row.length ≤ b) : m'.byteAt b = m.byteAt b

/-- A row that fits is found where it was laid, and nowhere else. -/
theorem laidOver_storing {row : List UInt8} (ha : 0 ≤ a) (hend : a + row.length ≤ m.size) :
    m.LaidOver a row (m.storing a row) where
  size := size_storing row
  fits := ⟨ha, hend⟩
  found k hk := by
    -- An address of the row is that of its first byte and a place in the row.
    have hholds : m.Holds (a + k) := holds_iff.mpr (by omega)
    have hplace : (a + k - a).toNat = k := by omega
    rw [byteAt_storing row hholds, if_pos (by omega), hplace, List.getElem?_eq_getElem hk]
    rfl
  others b hb hout := by
    rw [byteAt_storing row hb]
    split
    · -- Beyond its end the row has no byte.
      rw [List.getElem?_eq_none (by omega)]
      rfl
    · rfl

/-- A row that lies beyond the bank leaves it as it is. -/
theorem storing_of_size_le (row : List UInt8) (h : m.size ≤ a) : m.storing a row = m := by
  -- No entry of the bank stands as far behind as the row.
  have hfar : ∀ k, k < m.bytes.size → ¬ a ≤ k := by
    unfold size at h
    omega
  cases m with
  | mk bytes =>
    simp only [storing, mk.injEq]
    apply Array.ext
    · simp
    · intro k _ hk
      simp [hfar k hk]

/-- Laying a row is laying its first byte and then the others. -/
theorem storing_singleton_storing (byte : UInt8) (row : List UInt8) :
    (m.storing a [byte]).storing (a + 1) row = m.storing a (byte :: row) := by
  simp only [storing, mk.injEq]
  apply Array.ext
  · simp
  · intro k _ _
    simp only [Array.getElem_mapIdx]
    -- Beyond the first byte, at it, and before it.
    by_cases hlt : a + 1 ≤ k
    · have hidx : (k - a).toNat = (k - (a + 1)).toNat + 1 := by omega
      have hle : a ≤ k := by omega
      simp [hlt, hle, hidx]
    · by_cases heq : a = k
      · have hlt' : ¬ (k : Int) + 1 ≤ k := by omega
        simp [heq, hlt']
      · have hle : ¬ a ≤ k := by omega
        simp [hlt, hle]

/-- Laying the bytes that are there already changes nothing. -/
theorem storing_eq_self {row : List UInt8} (ha : 0 ≤ a)
    (h : ∀ (k : Nat) (hk : k < row.length), m.byteAt (a + k) = row[k]) : m.storing a row = m := by
  cases m with
  | mk bytes =>
    simp only [storing, mk.injEq]
    apply Array.ext
    · simp
    · intro k _ hk
      simp only [Array.getElem_mapIdx]
      split
      · -- Where the row has a byte, it is the one that stands there.
        by_cases hrow : (k - a).toNat < row.length
        · have hplace : (a + ((k - a).toNat : Nat)).toNat = k := by omega
          have hbyte := h _ hrow
          simp only [byteAt, hplace, Array.getD_eq_getD_getElem?] at hbyte
          rw [Array.getElem?_eq_getElem hk] at hbyte
          rw [List.getElem?_eq_getElem hrow]
          exact hbyte.symm
        · -- Beyond its end the row has no byte.
          rw [List.getElem?_eq_none (by omega)]
          rfl
      · rfl

/-- One value that is stored is a row of one byte. -/
theorem write_eq_ok (h : m.Holds a) (value : Int) :
    m.write a value = .ok (m.storing a [UInt8.ofInt value]) := by
  have h0 := (holds_iff.mp h).1
  -- To set an entry is to lay a row of one byte, entry by entry.
  have hset (byte : UInt8) :
      m.bytes.setIfInBounds a.toNat byte = (m.storing a [byte]).bytes := by
    apply Array.ext
    · simp [storing]
    · intro k _ hk
      have hsize : k < m.bytes.size := by simpa [storing] using hk
      rw [Array.getElem_setIfInBounds hsize]
      -- At the address, behind it, and before it.
      by_cases heq : a.toNat = k
      · have hka : (k : Int) = a := by omega
        simp [storing, heq, hka]
      · by_cases hle : a ≤ k
        · have hidx : (k - a).toNat = (k - a).toNat - 1 + 1 := by omega
          rw [if_neg heq]
          simp only [storing, Array.getElem_mapIdx, if_pos hle]
          rw [hidx]
          simp
        · simp [storing, heq, hle]
  simp only [write, check_eq_ok h, hset]
  rfl

/-- A value with no place in the bank is refused. -/
theorem write_eq_error (h : ¬ m.Holds a) (value : Int) :
    m.write a value = .error (.outsideMemory a m.top) := by
  simp only [write, check_eq_error h]
  rfl

/-- Bytes stored one by one are laid over the bank as far as it reaches. The
first that has no place is the one that is refused. -/
theorem writeEach_eq (m : Memory) (row : List UInt8) (ha : 0 ≤ a) :
    m.writeEach a row = (m.storing a row,
      if row = [] ∨ a + row.length ≤ m.size then none
      else some (.outsideMemory (max a m.size) m.top)) := by
  -- By induction on the row: its first byte is stored, or it is the one that is refused.
  induction row generalizing m a with
  | nil => simp [writeEach]
  | cons byte row ih =>
    by_cases h : m.Holds a
    · have hlt := (holds_iff.mp h).2
      have hmax : max (a + 1) (m.size : Int) = max a m.size := by omega
      -- An empty rest has its place, since the byte before it has one.
      have hiff : (row = [] ∨ a + 1 + (row.length : Int) ≤ m.size) ↔
          (byte :: row = [] ∨ a + ((byte :: row).length : Int) ≤ m.size) := by
        cases row <;> simp <;> omega
      simp only [writeEach, write_eq_ok h, Byte.ofInt_toNat]
      rw [ih _ (by omega), storing_singleton_storing]
      simp only [size_storing, top_storing, hmax, hiff]
    · -- Nothing of the row is left inside, so all of it is dropped.
      have hge : m.size ≤ a := by
        rw [holds_iff] at h
        omega
      have hlong : ¬ (byte :: row = [] ∨ a + ((byte :: row).length : Int) ≤ m.size) := by
        simp only [List.length_cons, reduceCtorEq, false_or]
        omega
      have hmax : max a (m.size : Int) = a := by omega
      simp only [writeEach, write_eq_error h, if_neg hlong, hmax, storing_of_size_le _ hge]

/-- What stands before a block, the block, and what stands after it are the bank
with the block laid over it. -/
theorem splice_eq_storing (m : Memory) (start : Nat) (block : Array UInt8)
    (h : start + block.size ≤ m.size) :
    m.bytes.extract 0 start ++ block ++ m.bytes.extract (start + block.size) m.size =
      (m.storing start block.toList).bytes := by
  unfold size at h
  have hmin : min start m.bytes.size = start := by omega
  -- Both sides have as many bytes, and the same one at each place.
  apply Array.ext
  · simp only [storing, size, Array.size_append, Array.size_extract, Array.size_mapIdx]
    omega
  · intro k _ hk
    simp only [storing, Array.getElem_append, Array.size_append, Array.size_extract, hmin,
      Nat.sub_zero, Array.getElem_extract, Array.getElem_mapIdx]
    -- Before the block, within it, and after it.
    by_cases hbefore : k < start
    · have hle : ¬ (start : Int) ≤ k := by omega
      have hlt : k < start + block.size := by omega
      simp [hbefore, hle, hlt]
    · have hle : (start : Int) ≤ k := by omega
      have hidx : ((k : Int) - start).toNat = k - start := by omega
      by_cases hwithin : k < start + block.size
      · have hin : k - start < block.size := by omega
        simp [hbefore, hle, hidx, hin, hwithin]
      · have hout : ¬ k - start < block.size := by omega
        have hadd : start + block.size + (k - (start + block.size)) = k := by omega
        simp [hle, hidx, hout, hwithin, hadd]

/-- A block that lies in the bank is laid over it. -/
theorem writeBlock_eq_ok {block : Array UInt8}
    (h : block.size ≠ 0 → m.Holds a ∧ m.Holds (a + block.size - 1)) :
    m.writeBlock a block = .ok (m.storing a block.toList) := by
  by_cases hempty : block.size = 0
  · -- A block without bytes is not even checked.
    have hnil : block = #[] := Array.eq_empty_of_size_eq_zero hempty
    simp [writeBlock, hnil]
  · obtain ⟨hfirst, hlast⟩ := h hempty
    have h0 := (holds_iff.mp hfirst).1
    have hend := (holds_iff.mp hlast).2
    have hcast : ((a.toNat : Nat) : Int) = a := Int.toNat_of_nonneg h0
    have hne : block.isEmpty = false := by simpa using hempty
    simp only [writeBlock, hne, check_eq_ok hfirst, check_eq_ok hlast]
    -- Both ends are inside, so the three parts fill the bank.
    have hsplice := m.splice_eq_storing a.toNat block (by omega)
    rw [hcast] at hsplice
    exact congrArg (fun bytes => Except.ok (Memory.mk bytes)) hsplice

/-- A block that does not lie in the bank is refused at its first end that is
outside. -/
theorem writeBlock_eq_error {block : Array UInt8} (hne : block.size ≠ 0)
    (h : ¬ (m.Holds a ∧ m.Holds (a + block.size - 1))) :
    m.writeBlock a block =
      .error (.outsideMemory (if m.Holds a then a + block.size - 1 else a) m.top) := by
  have hne' : block.isEmpty = false := by simpa using hne
  -- The first end is inside, so it is the last one that is refused.
  by_cases ha : m.Holds a
  · have hn : ¬ m.Holds (a + block.size - 1) := fun hn => h ⟨ha, hn⟩
    simp only [writeBlock, hne', check_eq_ok ha, check_eq_error hn, if_pos ha]
    rfl
  · simp only [writeBlock, hne', check_eq_error ha, if_neg ha]
    rfl

end Chip8.Memory
