import Chip8.Proofs.Machine.Effect

/-!
# Chip8.Proofs.Machine.Waiting — waiting for a key

A wait for a key is the only instruction that may leave the counter where it is. While no
key is held it comes round again turn after turn, and only the timers go on:

* `Awaits` — the machine stands at a wait.
* `Waited` — what so many turns of waiting leave.
* `Took` — what the turn leaves that ends the wait.

`Awaits.step` is one turn without a key, `Awaits.run` any number of them by induction, and
`Awaits.take` the turn in which keys are held. `waits_until_held` puts them together.
-/

namespace Chip8

/-- A list of sixteen key states makes a keypad. -/
theorem Keypad.exists_ofList {states : List Bool} (h : states.length = 16) :
    ∃ keys, ofList states = .ok keys ∧ keys.toList = states :=
  ⟨_, dif_pos h, rfl⟩

/-- The lowest held key of a keypad is the first that its list says is held. -/
theorem Keypad.lowestHeld?_of_toList {keys : Keypad} {key : Key}
    (hheld : keys.toList[key.val]? = some true)
    (hlower : ∀ lower < key.val, keys.toList[lower]? = some false) :
    keys.lowestHeld? = some key := by
  -- An entry of the list is the state of the key with that number.
  have hget (k : Key) : keys.toList[k.val]? = some keys[k] := by
    rw [Vector.getElem?_toList]
    exact Vector.getElem?_eq_getElem k.isLt
  rw [lowestHeld?_eq_some_iff]
  refine ⟨?_, fun lower hlt => ?_⟩
  · exact Option.some.inj ((hget key).symm.trans hheld)
  · exact Option.some.inj ((hget lower).symm.trans (hlower lower.val hlt))

namespace Machine

variable {m m₁ m₂ : Machine} {x : Register} {key : Key} {n k : Nat}

/-! ## What waiting changes -/

/-- The machine stands at an instruction that waits for a key to put into `x`. -/
structure Awaits (m : Machine) (x : Register) : Prop where
  bounded : m.Bounded
  pc : m.pc ≤ 0xFFE
  word : (Instruction.waitKey x).EncodedBy (m.wordAt m.pc)

/-- What a turn at a wait leaves alone, whether it takes a key or not. The picture is the
same with its mark for being changed, and no key is let go. -/
structure Spared (m m' : Machine) : Prop where
  i : m'.i = m.i
  stack : m'.stack = m.stack
  memory : m'.memory = m.memory
  display : m'.display = m.display
  keys : m'.keys = m.keys
  random : m'.random = m.random

/-- What `n` turns of waiting leave: the timers have run down by `n`, with a beep for each
count of the sound timer, and a program finds all else as it was. -/
structure Waited (m : Machine) (n : Nat) (m' : Machine) : Prop extends Spared m m' where
  v : m'.v = m.v
  pc : m'.pc = m.pc
  delay : m'.delay = max 0 (m.delay - n)
  sound : m'.sound = max 0 (m.sound - n)
  beeps : (m'.beeps : Int) = m.beeps + min (n : Int) m.sound

/-- What the turn leaves that takes a key into `x`: no other register has changed, and the
counter stands at the next word. -/
structure Took (m : Machine) (x : Register) (key : Key) (m' : Machine) : Prop
    extends Spared m m' where
  taken : (m'.reg x).toNat = key.val
  others : ∀ r, r ≠ x → m'.reg r = m.reg r
  pc : m'.pc = m.pc + 2
  delay : m'.delay = max 0 (m.delay - 1)
  sound : m'.sound = max 0 (m.sound - 1)

theorem Spared.refl (m : Machine) : m.Spared m := by
  constructor <;> rfl

/-- What two turns leave alone they leave alone together. -/
theorem Spared.trans (h : m.Spared m₁) (h' : m₁.Spared m₂) : m.Spared m₂ where
  i := h'.i.trans h.i
  stack := h'.stack.trans h.stack
  memory := h'.memory.trans h.memory
  display := h'.display.trans h.display
  keys := h'.keys.trans h.keys
  random := h'.random.trans h.random

/-- No table but those of the registers, the counter and the timers speaks of a wait. -/
theorem spared_stepped (m : Machine) (x : Register) : m.Spared (m.stepped (.waitKey x)) where
  i := by simp only [stepped, indexAfter]
  stack := by
    show { m.stack with calls := m.callsAfter (.waitKey x) } = m.stack
    rfl
  memory := m.stepped_memory (.waitKey x)
  display := m.stepped_display (.waitKey x)
  keys := by simp only [stepped]
  random := by simp only [stepped, randomAfter]

/-- No turns of waiting leave the machine as it is, for its timers are not negative. -/
theorem Waited.zero (hm : m.Bounded) : m.Waited 0 m where
  toSpared := .refl m
  v := rfl
  pc := rfl
  delay := by
    have hdelay := hm.delay
    omega
  sound := by
    have hsound := hm.sound
    omega
  beeps := by
    have hsound := hm.sound
    omega

/-- Turns of waiting add up. -/
theorem Waited.trans (hm : m.Bounded) (h : m.Waited n m₁) (h' : m₁.Waited k m₂) :
    m.Waited (n + k) m₂ where
  toSpared := h.toSpared.trans h'.toSpared
  v := h'.v.trans h.v
  pc := h'.pc.trans h.pc
  delay := by
    rw [h'.delay, h.delay]
    omega
  sound := by
    rw [h'.sound, h.sound]
    omega
  beeps := by
    have hsound := hm.sound
    rw [h'.beeps, h.beeps, h.sound]
    omega

/-- After waiting the machine stands at the same wait. -/
theorem Awaits.waited (h : m.Awaits x) (h₁ : m.Waited n m₁) (hm₁ : m₁.Bounded) : m₁.Awaits x where
  bounded := hm₁
  pc := by
    rw [h₁.pc]
    exact h.pc
  word := by
    rw [h₁.pc, wordAt_congr h₁.memory]
    exact h.word

/-! ## Turns of waiting -/

/-- A wait never overreaches, so its turn is the table of the instruction and then the timers.
-/
theorem Awaits.step_eq (h : m.Awaits x) : m.step = (m.stepped (.waitKey x)).finish :=
  step_eq_stepped h.bounded h.pc h.word id

/-- A turn without a key only counts the timers down. -/
theorem Awaits.step (h : m.Awaits x) (hreleased : m.keys.lowestHeld? = none) :
    m.step.fault = none ∧ m.Waited 1 m.step.machine := by
  have hsound := h.bounded.sound
  rw [h.step_eq]
  refine ⟨rfl, spared_stepped m x, ?_, ?_, ?_, ?_, ?_⟩
  · show Vector.ofFn (m.registerAfter (.waitKey x)) = m.v
    refine (v_eq_ofFn fun r => ?_).symm
    simp only [registerAfter, hreleased]
  · show (if m.keys.lowestHeld?.isSome then m.pc + 2 else m.pc) = m.pc
    rw [hreleased]
    rfl
  · show max 0 (m.delayAfter (.waitKey x) - 1) = max 0 (m.delay - 1)
    rfl
  · show max 0 (m.soundAfter (.waitKey x) - 1) = max 0 (m.sound - 1)
    rfl
  · -- The turn beeps for the count that it takes from the sound timer.
    show ((if 0 < m.sound then m.beeps + 1 else m.beeps : Nat) : Int) = _
    split <;> omega

/-- Any number of turns without a key do no more than that. -/
theorem Awaits.run (h : m.Awaits x) (hreleased : m.keys.lowestHeld? = none) (n : Nat) :
    (m.run n).fault = none ∧ m.Waited n (m.run n).machine ∧ (m.run n).machine.Awaits x := by
  -- By induction on the turns from the front: the first of them leads to a machine that waits.
  induction n generalizing m with
  | zero => exact ⟨rfl, .zero h.bounded, h⟩
  | succ n ih =>
    obtain ⟨hdone, hwaited⟩ := h.step hreleased
    -- One turn keeps the keys and the wait, so the others start where the first did.
    have hnext : m.step.machine.Awaits x := h.waited hwaited h.bounded.step
    obtain ⟨hfault, hrest, hstands⟩ := ih hnext (by rw [hwaited.keys, hreleased])
    have hrun : m.run (n + 1) = m.step.machine.run n := by
      rw [Machine.run]
      split
      · next hstep => rw [hstep] at hdone; cases hdone
      · next hstep => rw [hstep]
    rw [hrun, Nat.add_comm n 1]
    exact ⟨hfault, hwaited.trans h.bounded hrest, hstands⟩

/-! ## The turn that takes a key -/

/-- A turn in which keys are held takes the lowest of them. -/
theorem Awaits.take (h : m.Awaits x) (hheld : m.keys.lowestHeld? = some key) :
    m.step.fault = none ∧ m.Took x key m.step.machine := by
  have hreg (r : Register) :
      (m.stepped (.waitKey x)).reg r = m.regWith x (UInt8.ofNat key.val) r := by
    rw [reg_stepped]
    simp only [registerAfter, hheld]
  rw [h.step_eq]
  refine ⟨rfl, spared_stepped m x, ?_, fun r hr => ?_, ?_, ?_, ?_⟩
  · -- The number of a key fits into a byte.
    show ((m.stepped (.waitKey x)).reg x).toNat = key.val
    rw [hreg, regWith, if_pos rfl, UInt8.toNat_ofNat']
    omega
  · show (m.stepped (.waitKey x)).reg r = m.reg r
    rw [hreg, regWith, if_neg hr]
  · show (if m.keys.lowestHeld?.isSome then m.pc + 2 else m.pc) = m.pc + 2
    rw [hheld]
    rfl
  · show max 0 (m.delayAfter (.waitKey x) - 1) = max 0 (m.delay - 1)
    rfl
  · show max 0 (m.soundAfter (.waitKey x) - 1) = max 0 (m.sound - 1)
    rfl

/-- The keys that are held make no difference to where the machine stands. -/
theorem Awaits.hold (h : m.Awaits x) (keys : Keypad) : (m.hold keys).Awaits x where
  bounded := { h.bounded with }
  pc := h.pc
  word := h.word

/-! ## All waits -/

/-- A machine that stands at a wait for a key, with no key held:

* any number of turns are completed and leave it waiting, with only the timers run down
  and a beep for each count of the sound timer;
* if its keys are set to any states after that, then the next turn takes the lowest key
  that is held, moves on by one word, changes no other register and leaves the keys as
  they were set. -/
theorem waits_until_held (h : m.Reachable) (hpc : m.pc ≤ 0xFFE)
    (hword : (Instruction.waitKey x).EncodedBy (m.wordAt m.pc))
    (hreleased : ∀ key : Key, m.keys.get key = false) (n : Nat) :
    (m.run n).fault = none ∧ m.Waited n (m.run n).machine ∧
      ∀ (states : List Bool) (key : Key), states.length = 16 → states[key.val]? = some true →
        (∀ lower < key.val, states[lower]? = some false) →
        ∃ keys : Keypad, keys.toList = states ∧
          let held := (m.run n).machine.hold keys
          (m.run n).machine.setKeys states = .ok held ∧ held.step.fault = none ∧
            held.Took x key held.step.machine := by
  have hawaits : m.Awaits x := ⟨h.bounded, hpc, hword⟩
  have hnone : m.keys.lowestHeld? = none := Keypad.lowestHeld?_eq_none_iff.mpr hreleased
  obtain ⟨hdone, hwaited, hstands⟩ := hawaits.run hnone n
  refine ⟨hdone, hwaited, fun states key hlength hheld hlower => ?_⟩
  obtain ⟨keys, hkeys, rfl⟩ := Keypad.exists_ofList hlength
  refine ⟨keys, rfl, ?_, (hstands.hold keys).take (Keypad.lowestHeld?_of_toList hheld hlower)⟩
  rw [setKeys, hkeys]
  rfl

/-- Waits for a key and puts it into the second register. -/
def waiting : Array UInt8 := #[0xF1, 0x0A]

/-- The keys `5` and `9` are held. -/
def fiveAndNine : List Bool := (List.range 16).map fun k => k == 5 || k == 9

/-- After a thousand turns of waiting the lower of two keys is taken. -/
theorem waiting_takes_five :
    ((programmed waiting).run 1000).machine.pc = 0x200 ∧
      ∃ held, ((programmed waiting).run 1000).machine.setKeys fiveAndNine = .ok held ∧
        (held.step.machine.reg 1).toNat = 5 ∧ held.step.machine.pc = 0x202 := by
  have hroom : waiting.size ≤ programRoom := by decide
  have hstart := standsIn_programmed hroom
  have hpc : (programmed waiting).pc ≤ 0xFFE := by
    rw [hstart.pc]
    decide
  have hword : (Instruction.waitKey 1).EncodedBy
      ((programmed waiting).wordAt (programmed waiting).pc) := by
    rw [hstart.pc]
    exact wordAt_programmed (k := 0) hroom rfl rfl
  have hreleased : ∀ key : Key, (programmed waiting).keys.get key = false := by
    rw [programmed_eq hroom]
    decide
  obtain ⟨-, hwaited, htakes⟩ := waits_until_held hstart.reachable hpc hword hreleased 1000
  have hat : ((programmed waiting).run 1000).machine.pc = 0x200 := hwaited.pc.trans hstart.pc
  obtain ⟨keys, -, hset, -, htook⟩ := htakes fiveAndNine 5 rfl rfl (by decide)
  have hheld (m : Machine) : (m.hold keys).pc = m.pc := rfl
  have hnext : (0x200 : Int) + 2 = 0x202 := rfl
  exact ⟨hat, _, hset, htook.taken, by rw [htook.pc, hheld, hat, hnext]⟩

end Machine

end Chip8
