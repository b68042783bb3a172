import Chip8.Proofs.Machine.Faulting
import Chip8.Proofs.Text.Hexadecimal

/-!
# Chip8.Proofs.Machine.Dumping — what a dump tells

A dump shows a machine and the text of an instruction. `dump_eq_iff` says that nothing that it
is made of gets lost: two dumps are the same text only if the machines agree on all that
`ShowsAlike` lists, and the texts of the instructions are the same.

The text is taken apart from its front. Registers, index, timers and word have a fixed width,
because they keep their bounds. The address does not: beyond memory it has a fourth digit. But
a blank follows it, and a new line follows the text of the instruction. What is left are the
open calls.
-/

namespace Chip8.Machine

open Text (ofString hex HasRoom Separable)

variable {a b m : Machine} {t u rest rest' : Text}

/-- Two machines have the same in all that a trace line shows. -/
structure LinesUp (a b : Machine) : Prop where
  v : a.v = b.v
  i : a.i = b.i
  delay : a.delay = b.delay
  sound : a.sound = b.sound
  opcodeAt : a.opcodeAt = b.opcodeAt
  opcode : a.opcode = b.opcode

/-- Two machines have the same in all that a dump shows. -/
structure ShowsAlike (a b : Machine) : Prop extends LinesUp a b where
  /-- The same calls are open, in the same order. -/
  calls : a.stack.calls = b.stack.calls

/-! ## Fields -/

theorem Bounded.hasRoom_i (hm : m.Bounded) : HasRoom 4 m.i :=
  ⟨hm.i.1, Int.lt_of_le_of_lt hm.i.2 (by decide)⟩

theorem Bounded.hasRoom_delay (hm : m.Bounded) : HasRoom 2 m.delay :=
  ⟨hm.delay.1, Int.lt_of_le_of_lt hm.delay.2 (by decide)⟩

theorem Bounded.hasRoom_sound (hm : m.Bounded) : HasRoom 2 m.sound :=
  ⟨hm.sound.1, Int.lt_of_le_of_lt hm.sound.2 (by decide)⟩

theorem Bounded.hasRoom_opcode (hm : m.Bounded) : HasRoom 4 m.opcode :=
  ⟨hm.opcode.1, Int.lt_of_le_of_lt hm.opcode.2 (by decide)⟩

theorem Bounded.hasRoom_call (hm : m.Bounded) : ∀ address ∈ m.stack.calls, HasRoom 3 address := by
  intro address hmem
  obtain ⟨hlow, hhigh⟩ := hm.calls address hmem
  exact ⟨hlow, Int.lt_of_le_of_lt hhigh (by decide)⟩

/-- The registers are always as wide, so they are told apart from what follows them. -/
theorem separable_registers :
    Separable (fun _ : Vector UInt8 16 => True) fun v =>
      ofString (Text.byteText v.toList.reverse) := by
  apply Text.separable_of_length
  · intro v _
    rw [Text.length_ofString, Text.length_byteText, List.length_reverse, Vector.length_toList]
  · intro v w _ _ h
    have hbytes := Text.byteText_injective (Text.ofString_injective h)
    exact Vector.toList_inj.mp (List.reverse_injective hbytes)

/-- The address of the word may have any width. It ends with the first blank. -/
theorem separable_address :
    Separable (fun _ : Int => True) fun n => ofString (hex 3 n) ++ [.char ' '] := by
  apply Text.separable_of_mark
  · intro n _
    rw [Text.char_mem_ofString, Text.toList_hex]
    exact Text.not_mem_hexChars (by decide) (by decide) (by decide)
  · intro x y _ _ h
    exact Text.hex_injective 3 (Text.ofString_injective h)

/-- A text without a new line ends with the first of them. -/
theorem separable_text : Separable (fun t : Text => .char '\n' ∉ t) fun t => t ++ [.char '\n'] :=
  Text.separable_of_mark (fun _ ht => ht) fun _ _ _ _ h => h

/-- An open call in a dump. -/
def callField (address : Int) : Text := ofString (" 0x" ++ hex 3 address)

/-- The addresses of open calls lie in memory, so they are all as wide. -/
theorem separable_callField : Separable (HasRoom 3) callField := by
  apply Text.separable_of_length
  · intro n hn
    rw [callField, Text.ofString_append, List.length_append,
      Text.length_ofString_hex (by decide) hn]
  · intro x y _ _ h
    rw [callField, callField, Text.ofString_append, Text.ofString_append] at h
    exact Text.hex_injective 3 (Text.ofString_injective (List.append_cancel_left h))

/-! ## Lines -/

/-- A trace line tells what it shows, whatever stands behind it. -/
theorem Bounded.traceLine_inj (ha : a.Bounded) (hb : b.Bounded)
    (h : a.traceLine t ++ rest = b.traceLine u ++ rest') :
    -- The fields are taken off the front one by one, each with the label before it.
    a.LinesUp b ∧ t ++ rest = u ++ rest' := by
  have hblank : ofString " OP: 0x" = [.char ' '] ++ ofString "OP: 0x" := by decide
  simp only [traceLine, List.append_assoc, hblank] at h
  -- The blank behind the address is taken as the end of its field. All labels are the same.
  rw [← List.append_assoc _ [_], ← List.append_assoc _ [_]] at h
  obtain ⟨hv, h⟩ := separable_registers _ _ _ _ trivial trivial (List.append_cancel_left h)
  obtain ⟨hi, h⟩ := Text.separable_hex (by decide) _ _ _ _ ha.hasRoom_i hb.hasRoom_i
    (List.append_cancel_left h)
  obtain ⟨hdelay, h⟩ := Text.separable_hex (by decide) _ _ _ _ ha.hasRoom_delay hb.hasRoom_delay
    (List.append_cancel_left h)
  obtain ⟨hsound, h⟩ := Text.separable_hex (by decide) _ _ _ _ ha.hasRoom_sound hb.hasRoom_sound
    (List.append_cancel_left h)
  obtain ⟨hat, h⟩ := separable_address _ _ _ _ trivial trivial (List.append_cancel_left h)
  obtain ⟨hopcode, h⟩ := Text.separable_hex (by decide) _ _ _ _ ha.hasRoom_opcode
    hb.hasRoom_opcode (List.append_cancel_left h)
  exact ⟨⟨hv, hi, hdelay, hsound, hat, hopcode⟩, List.append_cancel_left h⟩

theorem LinesUp.traceLine_eq (h : a.LinesUp b) (t : Text) : a.traceLine t = b.traceLine t := by
  simp only [traceLine, registerText, h.v, h.i, h.delay, h.sound, h.opcodeAt, h.opcode]

/-! ## Open calls -/

/-- Open calls are listed one after the other. -/
theorem callText_cons (address : Int) (calls : List Int) :
    ofString (callText (address :: calls)) = (address :: calls).flatMap callField := by
  have hcalls : callText (address :: calls) =
      String.join ((address :: calls).map fun address => " 0x" ++ hex 3 address) := rfl
  rw [hcalls, Text.ofString_join, List.flatMap_map]
  rfl

/-- The word for no calls is no list of calls: no address begins with a bracket. -/
theorem callText_nil_ne_cons (address : Int) (calls : List Int) :
    ofString (callText []) ≠ ofString (callText (address :: calls)) := by
  have hnone : ofString (callText []) = .char ' ' :: .char '(' :: ofString "Empty)" := by decide
  have hsome : ofString " 0x" = .char ' ' :: .char '0' :: ofString "x" := by decide
  rw [callText_cons, List.flatMap_cons, callField, Text.ofString_append, hnone, hsome]
  intro h
  cases (List.cons.inj (List.cons.inj h).2).1

/-- The list of the open calls tells which they are, and in which order. -/
theorem callText_inj {calls calls' : List Int} (hcalls : ∀ address ∈ calls, HasRoom 3 address)
    (hcalls' : ∀ address ∈ calls', HasRoom 3 address)
    (h : ofString (callText calls) = ofString (callText calls')) : calls = calls' := by
  have hprinted : ∀ address, HasRoom 3 address → callField address ≠ [] := by
    intro address _ hempty
    rw [callField, Text.ofString_append] at hempty
    cases (List.append_eq_nil_iff.mp hempty).1
  -- Only lists of the same kind can have the same text.
  cases calls with
  | nil =>
    cases calls' with
    | nil => rfl
    | cons address calls' => exact absurd h (callText_nil_ne_cons address calls')
  | cons address calls =>
    cases calls' with
    | nil => exact absurd h.symm (callText_nil_ne_cons address calls)
    | cons address' calls' =>
      rw [callText_cons, callText_cons] at h
      exact separable_callField.flatMap_inj hprinted hcalls hcalls' h

/-- A settled picture is not shown. -/
theorem showsAlike_settle (m : Machine) : (m.perform .settle).1.ShowsAlike m :=
  ⟨⟨rfl, rfl, rfl, rfl, rfl, rfl⟩, rfl⟩

/-! ## All dumps -/

/-- A dump tells all that it is made of. -/
theorem Bounded.dump_inj (ha : a.Bounded) (hb : b.Bounded) (ht : .char '\n' ∉ t)
    (hu : .char '\n' ∉ u) (h : a.dump t = b.dump u) : a.ShowsAlike b ∧ t = u := by
  have hline : ofString "\nStack:" = [.char '\n'] ++ ofString "Stack:" := by decide
  simp only [dump, List.append_assoc, hline] at h
  obtain ⟨halike, h⟩ := ha.traceLine_inj hb h
  rw [← List.append_assoc t, ← List.append_assoc u] at h
  obtain ⟨htext, h⟩ := separable_text _ _ _ _ ht hu h
  have hcalls := callText_inj ha.hasRoom_call hb.hasRoom_call (List.append_cancel_left h)
  exact ⟨⟨halike, hcalls⟩, htext⟩

theorem ShowsAlike.dump_eq (h : a.ShowsAlike b) (t : Text) : a.dump t = b.dump t := by
  simp only [dump, h.traceLine_eq, h.calls]

/-- A dump is lossless. The dumps of two machines with texts of one line are the same if and
only if

* the machines have the same in all registers, the index, both timers, the address and the
  word of the instruction;
* the same calls are open, in the same order;
* the texts are the same. -/
theorem dump_eq_iff (ha : a.Reachable) (hb : b.Reachable) (ht : .char '\n' ∉ t)
    (hu : .char '\n' ∉ u) : a.dump t = b.dump u ↔ a.ShowsAlike b ∧ t = u := by
  constructor
  · exact ha.bounded.dump_inj hb.bounded ht hu
  · rintro ⟨halike, rfl⟩
    exact halike.dump_eq t

/-- A dump does not show whether the picture is settled, but it shows where the index stands.
-/
theorem dump_of_overwritten :
    let text := ofString "LD B, V0"
    let settled := (overwritten.perform .settle).1
    settled.dump text = overwritten.dump text ∧
      overwritten.dump text ≠ (fresh (.ofList [])).dump text := by
  intro text settled
  have htext : .char '\n' ∉ text := by decide
  have hsettled := dump_eq_iff (reachable_overwritten.perform .settle) reachable_overwritten htext
    htext
  have hfresh := dump_eq_iff reachable_overwritten (.fresh (.ofList [])) htext htext
  refine ⟨hsettled.mpr ⟨showsAlike_settle overwritten, rfl⟩, ?_⟩
  intro hdump
  obtain ⟨halike, -⟩ := hfresh.mp hdump
  -- The index is at the last word of memory.
  obtain ⟨-, hi, -⟩ := overwritten_spec
  have hindex := hi.symm.trans halike.i
  cases hindex

end Chip8.Machine
