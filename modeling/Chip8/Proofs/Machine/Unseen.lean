import Chip8.Proofs.Machine.Effect

/-!
# Chip8.Proofs.Machine.Unseen — what no operation looks at

Three things about a machine make no difference to a program: whether its picture is
marked as changed, how many beeps it has asked for, and which random numbers were drawn
before. `Machine.recast` replaces all three, and runs of two machines are compared by
what becomes of a recast:

* `treats_perform` — an operation on a recast machine is refused or cut short for the
  same reason and leaves the same machine, recast. What it makes of the mark, how many
  numbers it draws and how many beeps it asks for is the same as well (`Treats`).
* `Bounded.performAll_recast` — so two runs that draw the same numbers differ in
  nothing that a program can see.
* `Bounded.step_settled` — and a machine whose picture was settled takes the same
  steps.
-/

namespace Chip8

namespace RandomSource

/-- The source after so many more numbers were drawn. -/
def after (r : RandomSource) (n : Nat) : RandomSource := { r with drawn := r.drawn + n }

theorem after_after (r : RandomSource) (a b : Nat) : (r.after a).after b = r.after (a + b) := by
  simp only [after, Nat.add_assoc]

/-- Two sources that will give the same numbers. -/
def SameFuture (r r' : RandomSource) : Prop := ∀ n, (r.after n).next = (r'.after n).next

theorem SameFuture.refl (r : RandomSource) : r.SameFuture r := fun _ => rfl

/-- After equally many numbers the same ones are to come. -/
theorem SameFuture.after {r r' : RandomSource} (h : r.SameFuture r') (n : Nat) :
    (r.after n).SameFuture (r'.after n) := by
  intro k
  rw [after_after, after_after]
  exact h (n + k)

end RandomSource

namespace Machine

variable {m : Machine} {i : Instruction} {mark : Bool} {random : RandomSource} {beeps : Nat}

/-! ## Recast machines -/

/-- The machine with another mark on its picture, another random source and another
count of beeps. -/
def recast (m : Machine) (mark : Bool) (random : RandomSource) (beeps : Nat) : Machine :=
  { m with
    display := { m.display with changed := mark }
    random := random
    beeps := beeps }

theorem Bounded.recast (hm : m.Bounded) (mark : Bool) (random : RandomSource) (beeps : Nat) :
    (m.recast mark random beeps).Bounded :=
  { hm with display := { hm.display with } }

/-- What an instruction lacks is none of the three. -/
theorem overreaches_recast :
    (m.recast mark random beeps).Overreaches i ↔ m.Overreaches i := by
  cases i <;> exact Iff.rfl

theorem overreachFault_recast :
    (m.recast mark random beeps).overreachFault i = m.overreachFault i := by
  cases i <;> rfl

theorem leftBy_recast :
    (m.recast mark random beeps).leftBy i = (m.leftBy i).recast mark random beeps := by
  cases i <;> rfl

/-- Only a random number comes from the source, and it is the next one. -/
theorem registerAfter_recast (h : random.next = m.random.next) :
    (m.recast mark random beeps).registerAfter i = m.registerAfter i := by
  cases i with
  | random x byte =>
    show m.regWith x (UInt8.ofInt random.next &&& byte) = _
    rw [h]
    rfl
  | _ => rfl

/-! ## What an operation makes of what it does not look at -/

/-- An operation makes `f` of the mark, draws `n` numbers and asks for `k` beeps, and
does so on every recast of the machine that has the same next number. -/
structure Treats (m : Machine) (operation : Operation) (f : Bool → Bool) (n k : Nat) : Prop where
  mark : (m.perform operation).1.display.changed = f m.display.changed
  random : (m.perform operation).1.random = m.random.after n
  beeps : (m.perform operation).1.beeps = m.beeps + k
  recast (mark : Bool) (random : RandomSource) (beeps : Nat) (h : random.next = m.random.next) :
    (m.recast mark random beeps).perform operation =
      ((m.perform operation).1.recast (f mark) (random.after n) (beeps + k),
        (m.perform operation).2)

/-- What an instruction makes of the mark. -/
def markAfter : Instruction → Bool → Bool
  | .clear | .draw _ _ _ => fun _ => true
  | _ => id

/-- How many numbers an instruction draws. -/
def numbersOf : Instruction → Nat
  | .random _ _ => 1
  | _ => 0

/-- The mark after an instruction. -/
theorem changed_displayAfter (m : Machine) (i : Instruction) :
    (m.displayAfter i).changed = markAfter i m.display.changed := by
  cases i <;> rfl

/-- The random source after an instruction. -/
theorem randomAfter_eq (m : Machine) (i : Instruction) :
    m.randomAfter i = m.random.after (numbersOf i) := by
  cases i <;> rfl

/-- The picture after an instruction, but for the mark, is the same on every recast. -/
theorem displayAfter_recast :
    (m.recast mark random beeps).displayAfter i =
      { m.displayAfter i with changed := markAfter i mark } := by
  cases i <;> rfl

/-- How many beeps a completed step asks for. -/
def beepsOf (m : Machine) (i : Instruction) : Nat := if 0 < m.soundAfter i then 1 else 0

/-- A beep that is asked for is counted, on top of any number of beeps. -/
theorem beeps_counted (m : Machine) (i : Instruction) (beeps : Nat) :
    (if 0 < m.soundAfter i then beeps + 1 else beeps) = beeps + m.beepsOf i := by
  unfold beepsOf
  split <;> rfl

/-- Of the tables, none but that of the registers looks at the source, and none at the
mark or at the count of beeps. -/
theorem stepped_recast (h : random.next = m.random.next) :
    (m.recast mark random beeps).stepped i =
      (m.stepped i).recast (markAfter i mark) (random.after (numbersOf i))
        (beeps + m.beepsOf i) := by
  -- Table by table, since each looks at other parts of the machine.
  have hregister : (m.recast mark random beeps).registerAfter i = m.registerAfter i :=
    registerAfter_recast h
  have hmemory : (m.recast mark random beeps).memoryAfter i = m.memoryAfter i := by
    cases i <;> rfl
  have hcalls : (m.recast mark random beeps).callsAfter i = m.callsAfter i := by
    cases i <;> rfl
  have hindex : (m.recast mark random beeps).indexAfter i = m.indexAfter i := by
    cases i <;> rfl
  have hpc : (m.recast mark random beeps).following i = m.following i := by
    cases i <;> rfl
  have hdelay : (m.recast mark random beeps).delayAfter i = m.delayAfter i := by
    cases i <;> rfl
  have hsound : (m.recast mark random beeps).soundAfter i = m.soundAfter i := by
    cases i <;> rfl
  unfold stepped
  rw [hregister, hmemory, hcalls, hindex, hpc, hdelay, hsound, randomAfter_eq,
    displayAfter_recast]
  show _ = Machine.recast _ _ _ _
  rw [← beeps_counted]
  rfl

/-! ## Operations -/

/-- An operation that leaves the three things alone, and does the same without them. -/
theorem treats_of_left {operation : Operation} {left : Machine} {refusal : Option Refusal}
    (hperform : m.perform operation = (left, refusal))
    (hmark : left.display.changed = m.display.changed) (hrandom : left.random = m.random)
    (hbeeps : left.beeps = m.beeps)
    (hrecast : ∀ mark random beeps,
      (m.recast mark random beeps).perform operation =
        (left.recast mark random beeps, refusal)) :
    m.Treats operation id 0 0 where
  mark := by
    rw [hperform]
    exact hmark
  random := by
    rw [hperform]
    exact hrandom
  beeps := by
    rw [hperform]
    exact hbeeps
  recast mark random beeps _ := by
    rw [hperform]
    exact hrecast mark random beeps

/-- A step that halts is cut short by its fault. -/
theorem perform_of_halt {left : Machine} {cause : Fault} (h : m.step = left.halt cause) :
    m.perform .step = (left, some (.fault cause)) := by
  simp only [perform, h]
  rfl

/-- A step that finishes is not cut short. -/
theorem perform_of_finish {left : Machine} (h : m.step = left.finish) :
    m.perform .step = (left, none) := by
  simp only [perform, h]
  rfl

/-- A step that faults leaves the three things alone. -/
theorem treats_of_halt {left : Machine} {cause : Fault} (hleft : m.Unmoved left)
    (hstep : m.step = left.halt cause)
    (hrecast : ∀ mark random beeps,
      (m.recast mark random beeps).step = (left.recast mark random beeps).halt cause) :
    m.Treats .step id 0 0 :=
  treats_of_left (perform_of_halt hstep) hleft.changed hleft.random hleft.beeps
    fun mark random beeps => perform_of_halt (hrecast mark random beeps)

section

variable (hm : m.Bounded)
include hm

/-- A step treats all recasts of a machine alike. -/
theorem treats_step : ∃ f n k, m.Treats .step f n k := by
  rcases m.turn_cases with hpc | ⟨hpc, hi⟩ | ⟨hpc, i, hi, hover⟩ | ⟨hpc, i, hi, hfits⟩
  · -- The first three ways leave all three things as they were.
    refine ⟨id, 0, 0, treats_of_halt ?_ (step_of_beyond hm hpc) fun mark random beeps => ?_⟩
    · constructor <;> rfl
    · exact step_of_beyond (hm.recast mark random beeps) hpc
  · refine ⟨id, 0, 0, treats_of_halt (.latched m) (step_of_unknown hm hpc hi)
      fun mark random beeps => ?_⟩
    exact step_of_unknown (hm.recast mark random beeps) hpc hi
  · refine ⟨id, 0, 0, treats_of_halt ((Unmoved.latched m).trans (.leftBy m.latched i))
      (step_of_overreaches hm hpc hi hover) fun mark random beeps => ?_⟩
    rw [step_of_overreaches (hm.recast mark random beeps) hpc hi (overreaches_recast.mpr hover),
      overreachFault_recast, ← leftBy_recast]
    rfl
  · -- Only a step that is completed marks the picture, draws numbers or asks for beeps.
    have hperform := perform_of_finish (step_eq_stepped hm hpc hi hfits)
    refine ⟨markAfter i, numbersOf i, m.beepsOf i, ?_, ?_, ?_, ?_⟩
    · rw [hperform]
      exact m.changed_displayAfter i
    · rw [hperform]
      exact m.randomAfter_eq i
    · rw [hperform]
      exact m.beeps_counted i m.beeps
    · intro mark random beeps hnext
      have hfits' : ¬ (m.recast mark random beeps).Overreaches i := mt overreaches_recast.mp hfits
      have hstep := step_eq_stepped (hm.recast mark random beeps) hpc hi hfits'
      rw [perform_of_finish hstep, hperform, stepped_recast hnext]

/-- Whatever an operation does, it treats all recasts of a machine alike. -/
theorem treats_perform (operation : Operation) : ∃ f n k, m.Treats operation f n k := by
  cases operation with
  -- A new picture is not marked, and neither is a settled one.
  | reset => exact ⟨fun _ => false, 0, 0, rfl, rfl, rfl, fun _ _ _ _ => rfl⟩
  | settle => exact ⟨fun _ => false, 0, 0, rfl, rfl, rfl, fun _ _ _ _ => rfl⟩
  | load program =>
    refine ⟨id, 0, 0, ?_⟩
    rcases Nat.lt_or_ge programRoom program.size with h | h
    · exact treats_of_left (perform_load_of_too_large h m) rfl rfl rfl
        fun _ _ _ => perform_load_of_too_large h _
    · exact treats_of_left (perform_load_of_fits hm h) rfl rfl rfl
        fun _ _ _ => perform_load_of_fits (hm.recast _ _ _) h
  | setKeys states =>
    refine ⟨id, 0, 0, ?_⟩
    cases states with
    | none => exact treats_of_left rfl rfl rfl rfl fun _ _ _ => rfl
    | some states =>
      cases h : Keypad.ofList states with
      | error e =>
        exact treats_of_left (perform_setKeys_of_error h m) rfl rfl rfl
          fun _ _ _ => perform_setKeys_of_error h _
      | ok keys =>
        exact treats_of_left (perform_setKeys_of_ok h m) rfl rfl rfl
          fun _ _ _ => perform_setKeys_of_ok h _
  | step => exact treats_step hm

/-! ## All runs -/

/-- Two runs of the same operations, on machines with the same numbers to come, draw
equally many of them, ask for equally many beeps and differ in nothing else. -/
theorem Bounded.performAll_recast (h : random.SameFuture m.random) (beeps : Nat)
    (operations : List Operation) :
    ∃ n k, (m.performAll operations).random = m.random.after n ∧
      (m.performAll operations).beeps = m.beeps + k ∧
      (m.recast m.display.changed random beeps).performAll operations =
        (m.performAll operations).recast (m.performAll operations).display.changed
          (random.after n) (beeps + k) := by
  -- By induction on the operations, for all recasts at once.
  induction operations generalizing m random beeps with
  | nil => exact ⟨0, 0, rfl, rfl, rfl⟩
  | cons operation rest ih =>
    obtain ⟨f, n, k, htreats⟩ := treats_perform hm operation
    -- The first operation leaves a recast of what it leaves in the other run.
    have hfuture : (random.after n).SameFuture (m.perform operation).1.random := by
      rw [htreats.random]
      exact h.after n
    obtain ⟨n', k', hrandom, hbeeps, hrecast⟩ :=
      ih (hm.perform operation) hfuture (beeps + k)
    refine ⟨n + n', k + k', ?_, ?_, ?_⟩
    · show ((m.perform operation).1.performAll rest).random = _
      rw [hrandom, htreats.random, RandomSource.after_after]
    · show ((m.perform operation).1.performAll rest).beeps = _
      rw [hbeeps, htreats.beeps, Nat.add_assoc]
    · show ((m.recast _ random beeps).perform operation).1.performAll rest = _
      rw [htreats.recast _ random beeps (h 0), ← htreats.mark, hrecast, RandomSource.after_after,
        Nat.add_assoc]
      rfl

end

/-! ## Machines that differ in the mark only -/

variable {m' : Machine}

/-- Machines that are the same once their pictures are settled are recasts. -/
theorem eq_recast_of_settled (h : m'.settleDisplay = m.settleDisplay) :
    m' = m.recast m'.display.changed m.random m.beeps := by
  calc m' = m'.settleDisplay.recast m'.display.changed m'.settleDisplay.random
        m'.settleDisplay.beeps := rfl
    _ = m.settleDisplay.recast m'.display.changed m.settleDisplay.random
        m.settleDisplay.beeps := by rw [h]

/-- No operation looks at the mark. -/
theorem Bounded.perform_settled (hm : m.Bounded) (h : m'.settleDisplay = m.settleDisplay)
    (operation : Operation) :
    (m'.perform operation).1.settleDisplay = (m.perform operation).1.settleDisplay ∧
      (m'.perform operation).2 = (m.perform operation).2 := by
  obtain ⟨f, n, k, htreats⟩ := treats_perform hm operation
  rw [eq_recast_of_settled h, htreats.recast _ _ _ rfl, ← htreats.random, ← htreats.beeps]
  exact ⟨rfl, rfl⟩

/-- No step looks at the mark. -/
theorem Bounded.step_settled (hm : m.Bounded) (h : m'.settleDisplay = m.settleDisplay) :
    m'.step.machine.settleDisplay = m.step.machine.settleDisplay ∧
      m'.step.fault = m.step.fault := by
  obtain ⟨hmachine, hrefusal⟩ := hm.perform_settled h .step
  -- Different faults are different refusals.
  have hinjective : Function.Injective Refusal.fault := fun _ _ heq => Refusal.fault.inj heq
  exact ⟨hmachine, Option.map_injective hinjective hrefusal⟩

end Machine

end Chip8
