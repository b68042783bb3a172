import Chip8.Proofs.Machine.Calls
import Chip8.Proofs.Machine.Faulting
import Chip8.Proofs.Machine.Unseen

/-!
# Chip8.Proofs.Machine.Reset — a reset leaves no trace of the past

Whatever a program has done, also one that faulted in the middle of an instruction, a
reset brings every part of the machine back to what a new machine has. Only the random
source and the count of beeps live on, and no operation looks at what was drawn and
counted before (`Bounded.performAll_recast`). So from then on the machine goes the way of a
new one.
-/

namespace Chip8

theorem RandomSource.next_ofList_nil (n : Nat) : ((RandomSource.ofList []).after n).next = 0 := rfl

namespace Machine

variable {m : Machine} {random : RandomSource}

/-- New memory byte by byte: the digits in their place, and zeros elsewhere. -/
theorem byteAt_freshMemory {a : Int} (hlow : 0 ≤ a) (hhigh : a < 0x1000) :
    freshMemory.byteAt a =
      if 0x050 ≤ a ∧ a < 0x0A0 then Font.glyphs.getD (a - 0x050).toNat 0 else 0 := by
  have hholds : (Memory.zeroed memorySize).Holds a := by
    rw [Memory.holds_iff, Memory.size_zeroed]
    exact ⟨hlow, hhigh⟩
  have hzero : (Memory.zeroed memorySize).byteAt a = 0 := Memory.byteAt_zeroed
  have hsize : Font.glyphs.size = 80 := Font.size_glyphs
  have hstart : (fontStart : Int) = 0x050 := rfl
  rw [freshMemory_eq, Memory.byteAt_storing _ hholds, hzero, hstart]
  by_cases hfont : 0x050 ≤ a ∧ a < 0x0A0
  · rw [if_pos hfont, if_pos hfont.1]
    simp [Array.getD_eq_getD_getElem?]
  · rw [if_neg hfont]
    split
    · -- Behind the digits nothing was stored.
      have hbehind : Font.glyphs.size ≤ (a - 0x050).toNat := by omega
      simp [hbehind]
    · rfl

/-- A new machine with another source and other beeps is a recast of a new machine. -/
theorem recast_fresh (r : RandomSource) (beeps : Nat) :
    (fresh random).recast (fresh random).display.changed r beeps =
      { fresh r with beeps := beeps } := by
  unfold recast fresh
  rfl

/-- A reset leaves no trace of what was run before:

* every part is that of a new machine, but for the random source and the count of
  beeps, and memory holds the digits and zeros;
* after any operations, the machine is the one that they make of a new machine whose
  source has the same numbers to come, as many of them were drawn and as many beeps were
  asked for, and any next operation is refused or cut short for the same reason. -/
theorem reset_forgets (h : m.Reachable) (hrandom : m.random.SameFuture random) :
    m.reset = { fresh m.random with beeps := m.beeps } ∧
      (∀ a, 0 ≤ a → a < 0x1000 →
        m.reset.memory.byteAt a =
          if 0x050 ≤ a ∧ a < 0x0A0 then Font.glyphs.getD (a - 0x050).toNat 0 else 0) ∧
      ∀ operations : List Operation,
        let later := m.reset.performAll operations
        let new := (fresh random).performAll operations
        later = { new with random := later.random, beeps := later.beeps } ∧
          (∃ drawn, later.random = m.random.after drawn ∧ new.random = random.after drawn) ∧
          later.beeps = m.beeps + new.beeps ∧
          ∀ next, (later.perform next).2 = (new.perform next).2 := by
  have hreset := h.bounded.reset_eq
  refine ⟨hreset, fun a hlow hhigh => ?_, fun operations => ?_⟩
  · rw [hreset]
    exact byteAt_freshMemory hlow hhigh
  · intro later new
    obtain ⟨n, k, hdrawn, hbeeps, hlater⟩ :=
      (Bounded.fresh random).performAll_recast hrandom m.beeps operations
    -- A reset machine is a new one, but for the numbers to come and the beeps so far.
    have hrecast : later = new.recast new.display.changed (m.random.after n) (m.beeps + k) := by
      rw [recast_fresh, ← hreset] at hlater
      exact hlater
    have hcount : new.beeps = k := hbeeps.trans (Nat.zero_add k)
    have hnew : new.Bounded := ((Reachable.fresh random).performAll operations).bounded
    refine ⟨?_, ⟨n, ?_, hdrawn⟩, ?_, fun next => ?_⟩
    · rw [hrecast]
      rfl
    · rw [hrecast]
      rfl
    · rw [hrecast, hcount]
      rfl
    · -- The next number is the same on both sides, so the next operation goes the same way.
      have hnext : (m.random.after n).next = new.random.next := by
        rw [hdrawn]
        exact hrandom n
      obtain ⟨f, n', k', htreats⟩ := treats_perform hnew next
      rw [hrecast, htreats.recast _ _ _ hnext]

/-- After digits were cut short at the end of memory, a reset machine runs the next
program as a new one does. -/
theorem overwritten_starts_over :
    (overwritten.step.machine.reset.performAll [.load nested, .step]).stack.calls = [0x200] := by
  have hreached := reachable_overwritten.perform .step
  rw [perform_step] at hreached
  have hstart : (programmed overwriting).random = .ofList [] := by
    rw [programmed_eq overwriting_room]
    rfl
  have hthird (m : Machine) :
      (m.performAll [.step, .step]).step.machine = m.performAll [.step, .step, .step] := rfl
  -- Whatever was drawn, a source of zeros has only zeros to come.
  have hfuture : overwritten.step.machine.random.SameFuture (.ofList []) := by
    obtain ⟨n, -, hdrawn, -, -⟩ := (reachable_programmed overwriting).bounded.performAll_recast
      (RandomSource.SameFuture.refl _) 0 [.step, .step, .step]
    intro k
    rw [overwritten, hthird, hdrawn, hstart, RandomSource.after_after,
      RandomSource.next_ofList_nil, RandomSource.next_ofList_nil]
  obtain ⟨-, -, hruns⟩ := reset_forgets hreached hfuture
  obtain ⟨hsame, -⟩ := hruns [.load nested, .step]
  have hroom : nested.size ≤ programRoom := by decide
  have hword : (programmed nested).wordAt 0x200 = 0x2206 :=
    wordAt_programmed (k := 0) hroom rfl rfl
  obtain ⟨-, hcalled⟩ := (standsIn_programmed hroom).call 0x206 (by decide) hword (by decide)
  have hloaded (program : Array UInt8) :
      (fresh (.ofList [])).performAll [.load program, .step] =
        (programmed program).step.machine := rfl
  have hcalls {later new : Machine} {r : RandomSource} {beeps : Nat}
      (h : later = { new with random := r, beeps := beeps }) :
      later.stack.calls = new.stack.calls := by rw [h]
  rw [hcalls hsame, hloaded]
  exact hcalled.calls

end Machine

end Chip8
