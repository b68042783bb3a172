import Chip8.Proofs.History
import Chip8.Proofs.Memory.Storing

/-!
# Chip8.Proofs.Memory.Recall — what was stored last is read

A bank is written byte by byte and in blocks, at any addresses, and cleared in between. Some
of these calls are refused. What the bank holds in the end is said here from the calls alone:

* `completed` — the calls of a row that were not refused.
* `held` — what an address has to hold: the low eight bits of what was stored there last since
  the bank was cleared, or zero.
* `SticksOut` — a call is about an address that the bank does not have. A `Checked` result is
  a refusal for just this reason, and then names such an address.

A call that stores is a row of values and the address of the first of them (`Call.values` and
`Call.first`), so writes and blocks need no lemmas of their own. `Recalls.attempt` is the step
lemma about one call, `last_store_is_read` the result about any number of them.
-/

namespace Chip8.Memory

/-! ## Calls -/

/-- A call that changes a bank. -/
inductive Call where
  | write (address value : Int)
  | writeBlock (address : Int) (block : Array UInt8)
  | clear

/-- The bank after a call, or why the call is refused. -/
def attempt (m : Memory) : Call → Except Fault Memory
  | .write address value => m.write address value
  | .writeBlock address block => m.writeBlock address block
  | .clear => .ok m.clear

/-- What a call leaves, and why it was refused, if it was. -/
def perform (m : Memory) (call : Call) : Memory × Option Fault :=
  match m.attempt call with
  | .ok m' => (m', none)
  | .error fault => (m, some fault)

/-- What a row of calls leaves. -/
def performAll (m : Memory) (calls : List Call) : Memory :=
  calls.foldl (fun m call => (m.perform call).1) m

/-- The calls of a row that are not refused. -/
def completed (m : Memory) : List Call → List Call
  | [] => []
  | call :: rest =>
    match m.perform call with
    | (m', none) => call :: m'.completed rest
    | (m', some _) => m'.completed rest

namespace Call

/-- The address of the first value that a call stores. -/
def first : Call → Int
  | write address _ => address
  | writeBlock address _ => address
  | clear => 0

/-- The values that a call stores, side by side. -/
def values : Call → List Int
  | write _ value => [value]
  | writeBlock _ block => block.toList.map fun byte => (byte.toNat : Int)
  | clear => []

/-- What a call stores at an address. -/
def value? (a : Int) (call : Call) : Option Int :=
  if call.first ≤ a then call.values[(a - call.first).toNat]? else none

/-- Whether a call clears the bank. -/
def isClear : Call → Bool
  | clear => true
  | _ => false

@[simp] theorem length_values_writeBlock (address : Int) (block : Array UInt8) :
    (writeBlock address block).values.length = block.size := by
  simp [values]

end Call

/-! ## What the calls say -/

/-- The calls since the last one that cleared the bank. -/
def sinceClear (calls : List Call) : List Call := History.since Call.isClear calls

/-- What was stored last at an address since the bank was cleared. -/
def lastStored? (a : Int) (calls : List Call) : Option Int :=
  ((sinceClear calls).filterMap (Call.value? a)).getLast?

/-- What an address has to hold after some calls. -/
def held (calls : List Call) (a : Int) : Int := (lastStored? a calls).getD 0 % 256

/-- One of the `count` addresses from `address` on is none of a bank of `size` bytes. -/
def SticksOut (size : Nat) (address count : Int) : Prop :=
  ∃ b, address ≤ b ∧ b < address + count ∧ ¬ (0 ≤ b ∧ b < size)

/-- The result of a call about `count` addresses from `address` on. The call is refused
exactly if it sticks out, and then for an address that it is about and that the bank does not
have. -/
structure Checked {α : Type} (size : Nat) (address count : Int) (result : Except Fault α) :
    Prop where
  refused_iff : (∃ fault, result = .error fault) ↔ SticksOut size address count
  names (fault : Fault) (h : result = .error fault) :
    ∃ b, (address ≤ b ∧ b < address + count ∧ ¬ (0 ≤ b ∧ b < size)) ∧
      fault = .outsideMemory b (size - 1)

variable {m m' : Memory} {n : Nat} {a count : Int} {call : Call} {calls done : List Call}

theorem held_clear (calls : List Call) : held (calls ++ [.clear]) a = 0 := by
  rw [held, lastStored?, sinceClear, History.since_of_kind rfl]
  rfl

/-- What one more call stores is what an address has to hold, or it stores nothing there. -/
theorem held_concat (h : call.isClear = false) (calls : List Call) :
    held (calls ++ [call]) a = ((call.value? a).map (· % 256)).getD (held calls a) := by
  rw [held, lastStored?, sinceClear, History.since_concat h, History.getLast?_filterMap_concat]
  -- The call stores something at the address, or what was stored before stays the last.
  cases call.value? a <;> rfl

/-! ## Refusals -/

/-- A row of addresses sticks out at one of its ends. -/
theorem sticksOut_iff : SticksOut n a count ↔ 0 < count ∧ (a < 0 ∨ n < a + count) := by
  constructor
  · rintro ⟨b, hfirst, hlast, hout⟩
    omega
  · -- Below the bank it is the first address that sticks out, and beyond the bank the last
    -- one.
    rintro ⟨hcount, hlow | hhigh⟩
    · exact ⟨a, by omega, by omega, by omega⟩
    · exact ⟨a + count - 1, by omega, by omega, by omega⟩

section Checked

variable {α : Type} {result : Except Fault α}

/-- What is answered about addresses of the bank is no refusal. -/
theorem Checked.of_ok (h : ¬ SticksOut n a count) {answer : α} (hok : result = .ok answer) :
    Checked n a count result where
  refused_iff := by
    constructor
    · rintro ⟨fault, herror⟩
      cases hok.symm.trans herror
    · intro hout
      exact absurd hout h
  names fault herror := by cases hok.symm.trans herror

/-- A refusal that names one of the addresses beyond the bank is a checked one. -/
theorem Checked.of_error {b : Int} (h : a ≤ b ∧ b < a + count ∧ ¬ (0 ≤ b ∧ b < n))
    (herror : result = .error (.outsideMemory b (n - 1))) : Checked n a count result where
  refused_iff := iff_of_true ⟨_, herror⟩ ⟨b, h⟩
  names fault hfault := by
    cases herror.symm.trans hfault
    exact ⟨b, h, rfl⟩

end Checked

/-- The ends of a row of addresses are in the bank if the row does not stick out. -/
theorem holds_ends_iff (hcount : 1 ≤ count) :
    m.Holds a ∧ m.Holds (a + count - 1) ↔ ¬ SticksOut m.size a count := by
  rw [holds_iff, holds_iff, sticksOut_iff]
  omega

/-- The first end at which a row of addresses sticks out is one of these addresses. -/
theorem outside_end (hcount : 1 ≤ count) (h : ¬ (m.Holds a ∧ m.Holds (a + count - 1))) :
    let b := if m.Holds a then a + count - 1 else a
    a ≤ b ∧ b < a + count ∧ ¬ (0 ≤ b ∧ b < m.size) := by
  intro b
  rcases Decidable.em (m.Holds a) with ha | ha
  · -- The first end is inside, so it is the last one that sticks out.
    have hb : b = a + count - 1 := if_pos ha
    rw [holds_iff, holds_iff] at h
    rw [holds_iff] at ha
    omega
  · have hb : b = a := if_neg ha
    rw [holds_iff] at ha
    omega

/-- What is refused at its first end that is outside, and else is not refused, is checked. -/
theorem checked_of_ends {α : Type} {result : Except Fault α} {answer : α} (hcount : 1 ≤ count)
    (hok : m.Holds a ∧ m.Holds (a + count - 1) → result = .ok answer)
    (herror : ¬ (m.Holds a ∧ m.Holds (a + count - 1)) →
      result = .error (.outsideMemory (if m.Holds a then a + count - 1 else a) m.top)) :
    Checked m.size a count result := by
  by_cases h : m.Holds a ∧ m.Holds (a + count - 1)
  · exact .of_ok ((holds_ends_iff hcount).mp h) (hok h)
  · exact .of_error (outside_end hcount h) (herror h)

theorem checked_readBlock (m : Memory) (a : Int) (hcount : 1 ≤ count) :
    Checked m.size a count (m.readBlock a count) :=
  checked_of_ends hcount (fun h => readBlock_eq_ok h.1 h.2) readBlock_eq_error

/-- Writing a block is checked, also if the block is empty. -/
theorem checked_writeBlock (m : Memory) (a : Int) (block : Array UInt8) :
    Checked m.size a block.size (m.writeBlock a block) := by
  by_cases hempty : block.size = 0
  · -- An empty block is about no address at all.
    refine .of_ok ?_ (writeBlock_eq_ok fun hne => absurd hempty hne)
    rw [sticksOut_iff]
    omega
  · exact checked_of_ends (by omega) (fun h => writeBlock_eq_ok fun _ => h)
      (writeBlock_eq_error hempty)

/-- A single address is both ends of its row. -/
theorem checked_of_one {α : Type} {result : Except Fault α} {answer : α}
    (hok : m.Holds a → result = .ok answer)
    (herror : ¬ m.Holds a → result = .error (.outsideMemory a m.top)) :
    Checked m.size a 1 result := by
  refine checked_of_ends (Int.le_refl 1) (fun h => hok h.1) fun h => ?_
  rw [Int.add_sub_cancel, and_self] at h
  rw [Int.add_sub_cancel, ite_self]
  exact herror h

theorem checked_read (m : Memory) (a : Int) : Checked m.size a 1 (m.read a) :=
  checked_of_one read_eq_ok read_eq_error

theorem checked_write (m : Memory) (a value : Int) : Checked m.size a 1 (m.write a value) :=
  checked_of_one (fun h => write_eq_ok h value) (fun h => write_eq_error h value)

/-- Every call that changes a bank is checked. -/
theorem checked_attempt (m : Memory) (call : Call) :
    Checked m.size call.first call.values.length (m.attempt call) := by
  cases call with
  | write address value => exact checked_write m address value
  | writeBlock address block =>
    rw [Call.length_values_writeBlock]
    exact checked_writeBlock m address block
  -- To clear a bank is about no address either.
  | clear =>
    refine .of_ok ?_ rfl
    rw [sticksOut_iff]
    exact fun h => absurd h.1 (by decide)

/-! ## One call -/

/-- A call that stores lays the low eight bits of its values over the bank. -/
theorem attempt_eq_ok (h : call.isClear = false)
    (hfits : ¬ SticksOut m.size call.first call.values.length) :
    m.attempt call = .ok (m.storing call.first (call.values.map UInt8.ofInt)) := by
  cases call with
  | write address value =>
    have hends : m.Holds address ∧ m.Holds (address + 1 - 1) :=
      (holds_ends_iff (Int.le_refl 1)).mpr hfits
    exact write_eq_ok hends.1 value
  -- The values of a block are bytes already, so cutting them down changes nothing.
  | writeBlock address block =>
    have hrow : (Call.writeBlock address block).values.map UInt8.ofInt = block.toList := by
      simp [Call.values, Function.comp_def, Byte.ofInt_toNat]
    rw [hrow]
    rw [Call.length_values_writeBlock] at hfits
    exact writeBlock_eq_ok fun hne => (holds_ends_iff (by omega)).mpr hfits
  | clear => cases h

/-- A bank holds what the calls that were completed say. -/
structure Recalls (n : Nat) (m : Memory) (done : List Call) : Prop where
  size : m.size = n
  bytes (a : Int) (h : m.Holds a) : ((m.byteAt a).toNat : Int) = held done a

/-- A new bank has to hold zeros, and does. -/
theorem Recalls.zeroed (n : Nat) : Recalls n (zeroed n) [] where
  size := size_zeroed n
  bytes a _ := by
    rw [byteAt_zeroed]
    rfl

/-- What a call stores at an address is the byte there after it. -/
theorem byteAt_storing_values (h : m.Holds a) (call : Call) :
    ((m.storing call.first (call.values.map UInt8.ofInt)).byteAt a).toNat =
      ((call.value? a).map (· % 256)).getD ((m.byteAt a).toNat : Int) := by
  -- Either the call has a value for the address, or the address is left alone.
  rw [byteAt_storing _ h, Call.value?]
  split
  · rw [List.getElem?_map]
    cases call.values[(a - call.first).toNat]? with
    | none => rfl
    | some value => exact Byte.toNat_ofInt value
  · rfl

/-- A call that is completed is recalled. -/
theorem Recalls.attempt (h : Recalls n m done) (hok : m.attempt call = .ok m') :
    Recalls n m' (done ++ [call]) := by
  cases hclear : call.isClear with
  -- The bank was cleared: it holds zeros, and nothing is to be recalled.
  | true =>
    cases call with
    | clear =>
      cases hok
      refine ⟨(size_zeroed m.size).trans h.size, fun a _ => ?_⟩
      rw [held_clear]
      exact congrArg (fun byte : UInt8 => (byte.toNat : Int)) byteAt_zeroed
    | write | writeBlock => cases hclear
  | false =>
    -- The call was completed, so its row lies in the bank and all of it was stored.
    have hfits : ¬ SticksOut m.size call.first call.values.length := by
      rw [← (checked_attempt m call).refused_iff]
      rintro ⟨fault, herror⟩
      cases hok.symm.trans herror
    cases hok.symm.trans (attempt_eq_ok hclear hfits)
    refine ⟨(size_storing _).trans h.size, fun a ha => ?_⟩
    have ha' : m.Holds a := by
      rw [holds_iff, size_storing] at ha
      exact holds_iff.mpr ha
    rw [byteAt_storing_values ha', held_concat hclear, h.bytes a ha']

/-! ## Many calls -/

theorem performAll_cons (m : Memory) (call : Call) (rest : List Call) :
    m.performAll (call :: rest) = (m.perform call).1.performAll rest := rfl

theorem perform_of_ok (h : m.attempt call = .ok m') : m.perform call = (m', none) := by
  rw [perform, h]

/-- A refused call leaves the bank as it is. -/
theorem perform_of_error {fault : Fault} (h : m.attempt call = .error fault) :
    m.perform call = (m, some fault) := by
  rw [perform, h]

/-- A bank recalls all calls that were completed. -/
theorem Recalls.performAll (h : Recalls n m done) (calls : List Call) :
    Recalls n (m.performAll calls) (done ++ m.completed calls) := by
  -- By induction on the calls: one that is refused is neither recalled nor does it matter.
  induction calls generalizing m done with
  | nil =>
    rw [completed, List.append_nil]
    exact h
  | cons call rest ih =>
    rw [performAll_cons, completed]
    cases hcall : m.attempt call with
    | ok m' =>
      rw [perform_of_ok hcall]
      show Recalls n (m'.performAll rest) (done ++ call :: m'.completed rest)
      rw [List.append_cons]
      exact ih (h.attempt hcall)
    | error fault =>
      rw [perform_of_error hcall]
      exact ih h

/-- What is recalled of an address is what is read there. -/
theorem Recalls.read (h : Recalls n m done) (hlow : 0 ≤ a) (hhigh : a < n) :
    ∃ byte, m.read a = .ok byte ∧ (byte.toNat : Int) = held done a := by
  have hholds : m.Holds a := holds_iff.mpr ⟨hlow, h.size ▸ hhigh⟩
  exact ⟨m.byteAt a, read_eq_ok hholds, h.bytes a hholds⟩

/-- What is recalled of a row of addresses is what is read as a block. -/
theorem Recalls.readBlock (h : Recalls n m done) (hcount : 1 ≤ count) (hlow : 0 ≤ a)
    (hhigh : a + count ≤ n) :
    ∃ bytes, m.readBlock a count = .ok bytes ∧ (bytes.size : Int) = count ∧
      ∀ k : Nat, k < count → ((bytes.getD k 0).toNat : Int) = held done (a + k) := by
  have hsize := h.size
  have hfirst : m.Holds a := holds_iff.mpr (by omega)
  have hlast : m.Holds (a + count - 1) := holds_iff.mpr (by omega)
  refine ⟨_, readBlock_eq_ok hfirst hlast, ?_, fun k hk => ?_⟩
  · rw [Array.size_extract, show m.bytes.size = n from hsize]
    omega
  · -- The block is as long as was asked for, and its bytes are those at its addresses.
    have hnat : ((count.toNat : Nat) : Int) = count := Int.toNat_of_nonneg (by omega)
    have hplace : m.Holds (a + k) := holds_iff.mpr (by omega)
    rw [← hnat, getD_extract hlow (by omega)]
    exact h.bytes (a + k) hplace

/-- A bank is a map with checked addresses. After any calls on a new bank, refused or not,

* it has its size;
* at each of its addresses the low eight bits of what a completed call stored there last since
  the bank was cleared are read, or zero, one by one and in blocks;
* a call is refused exactly if it is about an address that the bank does not have, and leaves
  the bank as it is. So an empty block is never refused. -/
theorem last_store_is_read (n : Nat) (calls : List Call) :
    let m := (zeroed n).performAll calls
    let done := (zeroed n).completed calls
    (n ≤ largestRoom → ofSize n = .ok (zeroed n)) ∧
      m.size = n ∧
      (∀ a : Int, 0 ≤ a → a < n →
        ∃ byte, m.read a = .ok byte ∧ (byte.toNat : Int) = held done a) ∧
      (∀ a count : Int, 1 ≤ count → 0 ≤ a → a + count ≤ n →
        ∃ bytes, m.readBlock a count = .ok bytes ∧ (bytes.size : Int) = count ∧
          ∀ k : Nat, k < count → ((bytes.getD k 0).toNat : Int) = held done (a + k)) ∧
      ((∀ a, Checked n a 1 (m.read a)) ∧
        (∀ a count : Int, 1 ≤ count → Checked n a count (m.readBlock a count)) ∧
        (∀ a value, Checked n a 1 (m.write a value)) ∧
        (∀ a block, Checked n a block.size (m.writeBlock a block))) ∧
      (∀ call fault, (m.perform call).2 = some fault → (m.perform call).1 = m) ∧
      ∀ a, m.writeBlock a #[] = .ok m := by
  intro m done
  have h : Recalls n m done := (Recalls.zeroed n).performAll calls
  refine ⟨fun hroom => ?_, h.size, fun a => h.read, fun a count => h.readBlock,
    h.size ▸ ⟨checked_read m, fun a count => checked_readBlock m a, checked_write m,
      checked_writeBlock m⟩, fun call fault hrefused => ?_, fun a => rfl⟩
  · rw [ofSize, room_natCast hroom]
    rfl
  · -- A call that was refused was not completed, so it left the bank alone.
    cases hcall : m.attempt call with
    | ok m' =>
      rw [perform_of_ok hcall] at hrefused
      cases hrefused
    | error fault => rw [perform_of_error hcall]

/-- Calls on a bank of five bytes. Three of them stick out, and the last store at the address
two is of a number below zero. -/
def patched : List Call :=
  [.write 1 0x1FE, .writeBlock 3 #[1, 2, 3], .clear, .write (-1) 7, .writeBlock 1 #[7, 8, 9],
    .write 2 (-1), .write 5 4, .writeBlock (-3) #[]]

/-- What lies in the bank is read, and what sticks out of it is refused. -/
theorem patched_is_read :
    let m := (zeroed 5).performAll patched
    (∃ byte, m.read 2 = .ok byte ∧ byte.toNat = 0xFF) ∧
      (∃ bytes, m.readBlock 1 4 = .ok bytes ∧ (bytes.getD 0 0).toNat = 7 ∧
        (bytes.getD 3 0).toNat = 0) ∧
      (∃ fault, m.readBlock 2 4 = .error fault) ∧
      ∃ fault, m.perform (.writeBlock 3 #[1, 2, 3]) = (m, some fault) := by
  intro m
  obtain ⟨-, -, hread, hblock, ⟨-, hreads, -, hwrites⟩, -⟩ := last_store_is_read 5 patched
  refine ⟨?_, ?_, ?_, ?_⟩
  · -- The value below zero was cut down to its low eight bits.
    obtain ⟨byte, hok, hbyte⟩ := hread 2 (by decide) (by decide)
    have hheld : held ((zeroed 5).completed patched) 2 = 0xFF := by decide
    exact ⟨byte, hok, by omega⟩
  · -- The block was stored, and the store beyond the end was refused as a whole.
    obtain ⟨bytes, hok, -, hbytes⟩ := hblock 1 4 (by decide) (by decide) (by decide)
    have hfirst := hbytes 0 (by decide)
    have hlast := hbytes 3 (by decide)
    have hheld : held ((zeroed 5).completed patched) (1 + (0 : Nat)) = 7 := by decide
    have hheld' : held ((zeroed 5).completed patched) (1 + (3 : Nat)) = 0 := by decide
    exact ⟨bytes, hok, by omega, by omega⟩
  · -- A block is refused if only its last address sticks out.
    exact (hreads 2 4 (by decide)).refused_iff.mpr ⟨5, by decide⟩
  · obtain ⟨fault, hrefused⟩ := (hwrites 3 #[1, 2, 3]).refused_iff.mpr ⟨5, by decide⟩
    exact ⟨fault, perform_of_error hrefused⟩

end Chip8.Memory
