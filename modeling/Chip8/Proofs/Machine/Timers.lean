import Chip8.Proofs.Machine.Effect

/-!
# Chip8.Proofs.Machine.Timers — what becomes of the timers in a run

Every completed step takes one from each timer that runs, and asks for a beep if the
sound timer ran. The only instructions that load a timer do so before the countdown of
their own step. So the beeps that were asked for and those that the sound timer still
stands for add up: `Machine.timers_of_run` keeps the account over whole runs, in which
keys are set, pictures settled and programs loaded between the steps, and some steps
may fault.

`perform_timers` is the law of one operation, and the results about runs go by
induction over the operations.
-/

namespace Chip8.Machine

variable {m : Machine} {i : Instruction} {operation : Operation} {operations : List Operation}

/-! ## Stops -/

/-- The machine itself, if the operation is a step that is completed. -/
def stopAt (m : Machine) : Operation → List Machine
  | .step => if m.step.fault = none then [m] else []
  | _ => []

/-- The machines right before the completed steps of a run. -/
def stops (m : Machine) : List Operation → List Machine
  | [] => []
  | operation :: rest => m.stopAt operation ++ (m.perform operation).1.stops rest

/-- The instruction at the counter does not load the delay timer. -/
def KeepsDelay (m : Machine) : Prop :=
  ∀ x, ¬ (Instruction.setDelay x).EncodedBy (m.wordAt m.pc)

/-- The instruction at the counter does not load the sound timer. -/
def KeepsSound (m : Machine) : Prop :=
  ∀ x, ¬ (Instruction.setSound x).EncodedBy (m.wordAt m.pc)

/-- How much the instruction at the counter adds to the sound timer. -/
def soundGain (m : Machine) : Int :=
  match Instruction.decode? (m.wordAt m.pc) with
  | some (.setSound x) => (m.reg x).toNat - m.sound
  | _ => 0

/-- How much the instructions of some stops add to the sound timer. -/
def totalGain : List Machine → Int
  | [] => 0
  | stop :: rest => stop.soundGain + totalGain rest

/-- Only an instruction that loads the sound timer adds to it, and it adds the
difference. -/
theorem soundGain_eq (hi : i.EncodedBy (m.wordAt m.pc)) :
    m.soundGain = m.soundAfter i - m.sound := by
  have hsome : Instruction.decode? (m.wordAt m.pc) = some i :=
    Instruction.decode?_of_encodedBy hi
  unfold soundGain
  rw [hsome]
  cases i with
  | setSound x => rfl
  | _ => exact (Int.sub_self m.sound).symm

/-- An instruction that does not load the delay timer leaves it alone. -/
theorem KeepsDelay.delayAfter (h : m.KeepsDelay) (hi : i.EncodedBy (m.wordAt m.pc)) :
    m.delayAfter i = m.delay := by
  cases i with
  | setDelay x => exact absurd hi (h x)
  | _ => rfl

/-- An instruction that does not load the sound timer leaves it alone. -/
theorem KeepsSound.soundAfter (h : m.KeepsSound) (hi : i.EncodedBy (m.wordAt m.pc)) :
    m.soundAfter i = m.sound := by
  cases i with
  | setSound x => exact absurd hi (h x)
  | _ => rfl

/-- Such an instruction adds nothing to the sound timer. -/
theorem KeepsSound.soundGain (h : m.KeepsSound) : m.soundGain = 0 := by
  unfold Machine.soundGain
  split
  · rename_i x hsome
    obtain ⟨h0, h1⟩ := m.wordAt_bounds m.pc
    exact absurd (Instruction.encodedBy_of_decode? h0 h1 hsome) (h x)
  · rfl

/-- Without an instruction that loads the sound timer nothing is added to it. -/
theorem totalGain_eq_zero {stops : List Machine} (h : ∀ s ∈ stops, s.KeepsSound) :
    totalGain stops = 0 := by
  -- By induction on the stops.
  induction stops with
  | nil => rfl
  | cons stop rest ih =>
    obtain ⟨hfirst, hrest⟩ := List.forall_mem_cons.mp h
    rw [totalGain, hfirst.soundGain, ih hrest]
    rfl

/-! ## One operation -/

/-- The timers and the count of beeps are the same. -/
structure SameTimers (m m' : Machine) : Prop where
  delay : m'.delay = m.delay
  sound : m'.sound = m.sound
  beeps : m'.beeps = m.beeps

theorem Unmoved.sameTimers {m' : Machine} (h : m.Unmoved m') : m.SameTimers m' :=
  ⟨h.delay, h.sound, h.beeps⟩

/-- What an operation does to the timers. Nothing, unless it is a step that is
completed. -/
inductive TimerChange (m : Machine) (operation : Operation) : Prop
  | same (hstops : m.stopAt operation = []) (h : m.SameTimers (m.perform operation).1)
  | counted (i : Instruction) (hi : i.EncodedBy (m.wordAt m.pc))
    (hstops : m.stopAt operation = [m])
    (hdelay : (m.perform operation).1.delay = max 0 (m.delayAfter i - 1))
    (hsound : (m.perform operation).1.sound = max 0 (m.soundAfter i - 1))
    (hbeeps : (m.perform operation).1.beeps =
      if 0 < m.soundAfter i then m.beeps + 1 else m.beeps)

/-- An operation other than a reset counts the timers down, or it leaves them alone. -/
theorem perform_timers (hm : m.Bounded) (hreset : operation ≠ .reset) :
    m.TimerChange operation := by
  by_cases hstep : operation = .step
  · rw [hstep]
    by_cases hdone : m.step.fault = none
    · -- The step is completed, and all three numbers are those of its instruction.
      obtain ⟨i, -, hi, -, hleft⟩ := hm.step_eq_of_completed hdone
      refine .counted i hi (if_pos hdone) ?_ ?_ ?_
      all_goals
        rw [perform_step, hleft]
        rfl
    · exact .same (if_neg hdone) (hm.step_unmoved hdone).sameTimers
  · -- Outside of a step neither timer is looked at.
    have hstops : m.stopAt operation = [] := by
      cases operation with
      | step => exact absurd rfl hstep
      | _ => rfl
    obtain ⟨memory, keys, changed, hleft⟩ := hm.perform_outside hreset hstep
    refine .same hstops ?_
    rw [hleft]
    constructor <;> rfl

/-! ## Runs -/

/-- A timer is never below zero, also right after it was loaded. -/
theorem soundAfter_nonneg (hm : m.Bounded) (i : Instruction) : 0 ≤ m.soundAfter i := by
  cases i with
  | setSound x => exact Int.natCast_nonneg _
  | _ => exact hm.sound.1

/-- A timer that each completed step counts down, unless its instruction loads it, loses
one with each of them, down to zero. -/
theorem countdown_performAll {timer : Machine → Int} {Keeps : Machine → Prop}
    (hnonneg : ∀ {m : Machine}, m.Bounded → 0 ≤ timer m)
    (hchange : ∀ {m : Machine} {operation : Operation}, m.Bounded → operation ≠ .reset →
      (m.stopAt operation = [] ∧ timer (m.perform operation).1 = timer m) ∨
        (m.stopAt operation = [m] ∧
          (Keeps m → timer (m.perform operation).1 = max 0 (timer m - 1))))
    (hm : m.Bounded) (hreset : .reset ∉ operations) (hkeeps : ∀ s ∈ m.stops operations, Keeps s) :
    timer (m.performAll operations) = max 0 (timer m - (m.stops operations).length) := by
  -- By induction on the operations. Those that stop nowhere leave the timer as it is.
  induction operations generalizing m with
  | nil =>
    have := hnonneg hm
    show timer m = max 0 (timer m - 0)
    omega
  | cons operation rest ih =>
    obtain ⟨hfirst, hrest⟩ := not_or.mp (mt List.mem_cons.mpr hreset)
    obtain ⟨hnow, hlater⟩ := List.forall_mem_append.mp hkeeps
    have hrun := ih (hm.perform operation) hrest hlater
    show timer ((m.perform operation).1.performAll rest) = _
    rw [hrun, stops, List.length_append]
    rcases hchange hm (Ne.symm hfirst) with ⟨hstops, hsame⟩ | ⟨hstops, hcounted⟩
    · -- Nothing was counted, so all stops are those of the rest.
      rw [hstops, hsame, List.length_nil, Nat.zero_add]
    · -- Zero stays zero, so one less and then all the others less is all of them less at once.
      have hkept : Keeps m := hnow m (hstops ▸ List.mem_cons_self)
      rw [hstops, hcounted hkept, List.length_singleton]
      omega

section

variable (hm : m.Bounded) (hreset : .reset ∉ operations)
include hm hreset

/-- The delay timer loses one at each stop, unless it is loaded. -/
theorem delay_performAll (hkeeps : ∀ s ∈ m.stops operations, s.KeepsDelay) :
    (m.performAll operations).delay = max 0 (m.delay - (m.stops operations).length) := by
  refine countdown_performAll (fun hm => hm.delay.1) (fun hm hop => ?_) hm hreset hkeeps
  rcases perform_timers hm hop with ⟨hstops, hsame⟩ | ⟨i, hi, hstops, hdelay, -, -⟩
  · exact .inl ⟨hstops, hsame.delay⟩
  · refine .inr ⟨hstops, fun hkept => ?_⟩
    rw [hdelay, hkept.delayAfter hi]

/-- The sound timer loses one at each stop, unless it is loaded. -/
theorem sound_performAll (hkeeps : ∀ s ∈ m.stops operations, s.KeepsSound) :
    (m.performAll operations).sound = max 0 (m.sound - (m.stops operations).length) := by
  refine countdown_performAll (fun hm => hm.sound.1) (fun hm hop => ?_) hm hreset hkeeps
  rcases perform_timers hm hop with ⟨hstops, hsame⟩ | ⟨i, hi, hstops, -, hsound, -⟩
  · exact .inl ⟨hstops, hsame.sound⟩
  · refine .inr ⟨hstops, fun hkept => ?_⟩
    rw [hsound, hkept.soundAfter hi]

/-- Beeps and the sound timer together change only by what the timer is loaded with. -/
theorem beeps_add_sound_performAll :
    ((m.performAll operations).beeps : Int) + (m.performAll operations).sound =
      m.beeps + m.sound + totalGain (m.stops operations) := by
  -- By induction on the operations: at each stop the sum grows by what was loaded there.
  induction operations generalizing m with
  | nil => exact (Int.add_zero _).symm
  | cons operation rest ih =>
    obtain ⟨hfirst, hrest⟩ := not_or.mp (mt List.mem_cons.mpr hreset)
    show (((m.perform operation).1.performAll rest).beeps : Int) +
      ((m.perform operation).1.performAll rest).sound = _
    rw [ih (hm.perform operation) hrest, stops]
    rcases perform_timers hm (Ne.symm hfirst) with
      ⟨hstops, hsame⟩ | ⟨i, hi, hstops, -, hsound, hbeeps⟩
    · rw [hstops, hsame.sound, hsame.beeps]
      simp
    · have hgain := soundGain_eq hi
      have := soundAfter_nonneg hm i
      rw [hstops, hsound, hbeeps, List.singleton_append, totalGain, hgain]
      split <;> omega

/-- What the sound timer loses without being loaded are beeps. -/
theorem beeps_performAll (hkeeps : ∀ s ∈ m.stops operations, s.KeepsSound) :
    ((m.performAll operations).beeps : Int) =
      m.beeps + min ((m.stops operations).length : Int) m.sound := by
  -- Without loads the sum stays, so what the timer has lost the beeps have gained.
  have hgains : totalGain (m.stops operations) = 0 := totalGain_eq_zero hkeeps
  have hsum := beeps_add_sound_performAll hm hreset
  have hsound := sound_performAll hm hreset hkeeps
  have := hm.sound
  omega

end

/-! ## A program that beeps -/

/-- Loads the sound timer with three. -/
def beeping : Array UInt8 := #[0x61, 0x03, 0xF1, 0x18]

/-- Two steps that set a register and load the sound timer from it. -/
theorem StandsIn.loads_sound {program : Array UInt8} {a : Int} {calls : List Int} {x : Register}
    {byte : UInt8} (h : StandsIn program a calls m) (ha : a ≤ 0xFFC) (hidle : m.sound = 0)
    (hfirst : (Instruction.loadByte x byte).EncodedBy ((programmed program).wordAt a))
    (hsecond : (Instruction.setSound x).EncodedBy ((programmed program).wordAt (a + 2))) :
    m.stops [.step, .step] = [m, m.step.machine] ∧
      m.soundGain = 0 ∧ m.step.machine.soundGain = byte.toNat := by
  have hpc : m.following (.loadByte x byte) = a + 2 := by
    show m.pc + 2 = a + 2
    rw [h.pc]
  have hi : (Instruction.loadByte x byte).EncodedBy (m.wordAt m.pc) := by
    rw [h.pc, wordAt_congr h.memory]
    exact hfirst
  obtain ⟨hloaded, -, hat⟩ := h.step (by omega) hfirst id rfl
  rw [hpc] at hat
  have hi' : (Instruction.setSound x).EncodedBy (m.step.machine.wordAt m.step.machine.pc) := by
    rw [hat.pc, wordAt_congr hat.memory]
    exact hsecond
  obtain ⟨hdone, -, -⟩ := hat.step (by omega) hsecond id rfl
  have hleft := h.reachable.bounded.step_machine_eq hi hloaded
  have hreg : m.step.machine.reg x = byte := by
    rw [hleft, reg_stepped]
    exact if_pos rfl
  have hsound : m.step.machine.sound = 0 := by
    rw [hleft]
    show max 0 (m.sound - 1) = 0
    rw [hidle]
    rfl
  refine ⟨?_, ?_, ?_⟩
  · simp [stops, stopAt, hloaded, hdone, perform_step]
  · exact (soundGain_eq hi).trans (Int.sub_self m.sound)
  · rw [soundGain_eq hi', hsound, Int.sub_zero]
    show ((m.step.machine.reg x).toNat : Int) = byte.toNat
    rw [hreg]

/-! ## All runs -/

/-- The account of the timers over a run, in which anything but a reset may happen:

* if no completed step loads the delay timer, it has lost one for each of them, down to
  zero;
* if none loads the sound timer, it has lost one for each, down to zero, and for each
  that it lost there was a beep;
* in any case the beeps and the sound timer together have grown by what the sound timer
  was loaded with, less what it stood at before.

A step that faults changes neither timer, and asks for no beep. -/
theorem timers_of_run (h : m.Reachable) (hreset : .reset ∉ operations) :
    let m' := m.performAll operations
    let stops := m.stops operations
    ((∀ s ∈ stops, s.KeepsDelay) → m'.delay = max 0 (m.delay - stops.length)) ∧
      ((∀ s ∈ stops, s.KeepsSound) →
        m'.sound = max 0 (m.sound - stops.length) ∧
          (m'.beeps : Int) = m.beeps + min (stops.length : Int) m.sound) ∧
      (m'.beeps : Int) + m'.sound = m.beeps + m.sound + totalGain stops ∧
      (m.step.fault ≠ none → m.SameTimers m.step.machine) := by
  have hm := h.bounded
  refine ⟨delay_performAll hm hreset, fun hkeeps => ?_, beeps_add_sound_performAll hm hreset,
    fun hfault => (hm.step_unmoved hfault).sameTimers⟩
  exact ⟨sound_performAll hm hreset hkeeps, beeps_performAll hm hreset hkeeps⟩

/-- Once the sound timer was loaded with three, the beeps that were asked for and those
still to come are three. -/
theorem beeping_account :
    ((programmed beeping).performAll [.step, .step]).beeps +
      ((programmed beeping).performAll [.step, .step]).sound = 3 := by
  have hroom : beeping.size ≤ programRoom := by decide
  have hload : (Instruction.loadByte 1 3).EncodedBy ((programmed beeping).wordAt 0x200) :=
    wordAt_programmed (k := 0) hroom rfl rfl
  have hset : (Instruction.setSound 1).EncodedBy ((programmed beeping).wordAt 0x202) :=
    wordAt_programmed (k := 2) hroom rfl rfl
  have hstart := standsIn_programmed hroom
  have hidle : (programmed beeping).sound = 0 ∧ (programmed beeping).beeps = 0 := by
    rw [programmed_eq hroom]
    exact ⟨rfl, rfl⟩
  obtain ⟨hstops, hfirst, hsecond⟩ := hstart.loads_sound (by decide) hidle.1 hload hset
  have hreset : Operation.reset ∉ [Operation.step, Operation.step] := by simp
  obtain ⟨-, -, hsum, -⟩ := timers_of_run hstart.reachable hreset
  rw [hstops, totalGain, totalGain, totalGain, hfirst, hsecond, hidle.1, hidle.2] at hsum
  exact hsum

end Chip8.Machine
