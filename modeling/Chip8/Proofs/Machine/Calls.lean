import Chip8.Proofs.Machine.Effect

/-!
# Chip8.Proofs.Machine.Calls — a call comes back

A call leaves its own address on top of the open calls, and whatever runs above it
leaves that address and the calls below it alone. `Machine.RunsAbove` are the
machines that a run leads to while more than some number of calls stay open, and:

* `calls_perform` — an operation of a run opens a call, closes the newest one, or
  leaves the open calls as they are.
* `RunsAbove.calls` — so the calls below stay the same in the whole run.
* `call_returns` — when the number of open calls is first back to what it was, a
  return has led to the word after the call.

Nothing is asked of the program, which may well rewrite itself.
-/

namespace Chip8.Machine

variable {m m' : Machine} {operation : Operation} {n : Nat}

/-! ## Runs -/

/-- Whether an operation belongs to a run: a step that is completed, or a change from
outside that does not touch the program. -/
def RunsOn (m : Machine) : Operation → Prop
  | .step => m.step.fault = none
  | .setKeys _ | .settle => True
  | .reset | .load _ => False

/-- The machines that a run from `m` leads to while more than `n` calls stay open. -/
inductive RunsAbove (n : Nat) (m : Machine) : Machine → Prop
  | start : n < m.stack.depth → RunsAbove n m m
  | next {m' : Machine} {operation : Operation} :
    RunsAbove n m m' → m'.RunsOn operation → n < (m'.perform operation).1.stack.depth →
      RunsAbove n m (m'.perform operation).1

theorem RunsAbove.depth (h : RunsAbove n m m') : n < m'.stack.depth := by
  cases h with
  | start hdepth => exact hdepth
  | next _ _ hdepth => exact hdepth

/-- A run of a reachable machine leads to reachable machines only. -/
theorem RunsAbove.reachable (h : RunsAbove n m m') (hm : m.Reachable) : m'.Reachable := by
  induction h with
  | start => exact hm
  | next _ _ _ ih => exact ih.perform _

/-- A completed step goes on with the run as long as it does not close too many calls. -/
theorem RunsAbove.step (h : RunsAbove n m m') (hdone : m'.step.fault = none)
    (hdepth : n < m'.step.machine.stack.depth) : RunsAbove n m m'.step.machine := by
  have hon : m'.RunsOn .step := hdone
  exact h.next hon hdepth

/-! ## One operation -/

/-- What an operation does to the open calls and, if it closes one, to the counter. -/
inductive CallChange (m : Machine) (operation : Operation) : Prop
  | same (h : (m.perform operation).1.stack.calls = m.stack.calls)
  | opened (h : (m.perform operation).1.stack.calls = m.stack.calls ++ [m.pc])
  | closed (newest : Int) (hstep : operation = .step)
    (hret : Instruction.ret.EncodedBy (m.wordAt m.pc))
    (hcalls : m.stack.calls = (m.perform operation).1.stack.calls ++ [newest])
    (hpc : (m.perform operation).1.pc = newest + 2)

/-- Only a call and a return change the open calls. -/
theorem calls_perform (hm : m.Bounded) (hrun : m.RunsOn operation) : m.CallChange operation := by
  cases operation with
  | reset | load => cases hrun
  | settle => exact .same rfl
  | setKeys states =>
    refine .same ?_
    cases states with
    | none => rfl
    | some states =>
      simp only [perform, setKeys]
      cases Keypad.ofList states <;> rfl
  | step =>
    -- A completed step has its call list from the table of its instruction, and only two rows
    -- of that table change it.
    obtain ⟨i, -, hi, hfits, hstep⟩ := hm.step_eq_of_completed hrun
    have hleft : (m.perform .step).1 = m.stepped i := hstep
    have hcalls : (m.perform .step).1.stack.calls = m.callsAfter i := by
      rw [hleft, stepped_calls]
    cases i with
    | call target => exact .opened hcalls
    | ret =>
      obtain ⟨newest, hopen, hpc⟩ := newest_of_ret hfits
      refine .closed newest rfl hi ?_ ?_
      · rw [hcalls]
        exact hopen
      · rw [hleft]
        exact hpc
    | _ => exact .same hcalls

/-! ## All runs -/

/-- While more than `n` calls stay open, the first `n + 1` of them stay the same. -/
theorem RunsAbove.calls {calls : List Int} (h : RunsAbove n m m') (hm : m.Reachable)
    (hlength : calls.length ≤ n + 1) (hcalls : calls <+: m.stack.calls) :
    calls <+: m'.stack.calls := by
  -- A return is the only danger, and it leaves more than `n` calls.
  induction h with
  | start => exact hcalls
  | @next m' operation hrun hon hdepth ih =>
    rcases calls_perform (hrun.reachable hm).bounded hon with
      hsame | hopened | ⟨newest, -, -, hclosed, -⟩
    · rw [hsame]
      exact ih
    · rw [hopened]
      exact ih.trans (List.prefix_append _ _)
    · -- What is left is long enough to hold all of them.
      refine List.prefix_of_prefix_length_le ih ?_ (Nat.le_trans hlength hdepth)
      rw [hclosed]
      exact List.prefix_append _ _

/-! ## A call within a call -/

/-- A call to a call, and the return of each. -/
def nested : Array UInt8 := #[0x22, 0x06, 0x00, 0x00, 0x00, 0xEE, 0x22, 0x04, 0x00, 0xEE]

variable {program : Array UInt8} {a : Int} {calls : List Int}

theorem StandsIn.depth (h : StandsIn program a calls m) : m.stack.depth = calls.length := by
  rw [CallStack.depth, h.calls]

theorem StandsIn.depth_pos {newest : Int} (h : StandsIn program a (calls ++ [newest]) m) :
    0 < m.stack.depth := by
  rw [h.depth, List.length_append]
  exact Nat.succ_pos _

/-- Following a call: its own address is put on top of the open calls. -/
theorem StandsIn.call (h : StandsIn program a calls m) (target : Fin 4096) (ha : a ≤ 0xFFE)
    (hi : (Instruction.call target).EncodedBy ((programmed program).wordAt a))
    (hroom : calls.length ≠ 16) :
    m.step.fault = none ∧ StandsIn program target.val (calls ++ [a]) m.step.machine := by
  have hfits : ¬ m.Overreaches (.call target) := by
    show m.stack.calls.length ≠ 16
    rw [h.calls]
    exact hroom
  have hcalls : m.callsAfter (.call target) = calls ++ [a] := by
    show m.stack.calls ++ [m.pc] = _
    rw [h.calls, h.pc]
  obtain ⟨hdone, -, hleft⟩ := h.step ha hi hfits rfl
  rw [hcalls] at hleft
  exact ⟨hdone, hleft⟩

/-- Following a return: the newest call is closed, and the word after it comes next. -/
theorem StandsIn.ret {newest : Int} (h : StandsIn program a (calls ++ [newest]) m)
    (ha : a ≤ 0xFFE) (hi : Instruction.ret.EncodedBy ((programmed program).wordAt a)) :
    m.step.fault = none ∧ StandsIn program (newest + 2) calls m.step.machine := by
  have hfits : ¬ m.Overreaches .ret := by
    show m.stack.calls ≠ []
    rw [h.calls]
    exact List.append_ne_nil_of_right_ne_nil _ (List.cons_ne_nil _ _)
  have hcalls : m.callsAfter .ret = calls := by
    show m.stack.calls.dropLast = _
    rw [h.calls, List.dropLast_concat]
  have hpc : m.following .ret = newest + 2 := by
    show m.stack.calls.getLast?.getD 0 + 2 = _
    rw [h.calls, List.getLast?_concat]
    rfl
  obtain ⟨hdone, -, hleft⟩ := h.step ha hi hfits rfl
  rw [hcalls, hpc] at hleft
  exact ⟨hdone, hleft⟩

/-! ## Every call -/

/-- A call that is completed comes back, whatever is run in between. While it is open,
its address and the calls below it stay where they are. The operation that first
closes it is the step of a return, which leaves the calls below it and leads to the
word after the call. -/
theorem call_returns {target : Fin 4096} (h : m.Reachable)
    (hi : (Instruction.call target).EncodedBy (m.wordAt m.pc)) (hdone : m.step.fault = none) :
    m.step.machine.stack.calls = m.stack.calls ++ [m.pc] ∧
      ∀ m', RunsAbove m.stack.depth m.step.machine m' →
        m.stack.calls ++ [m.pc] <+: m'.stack.calls ∧
          ∀ operation, m'.RunsOn operation →
            (m'.perform operation).1.stack.depth ≤ m.stack.depth →
              operation = .step ∧ Instruction.ret.EncodedBy (m'.wordAt m'.pc) ∧
                (m'.perform operation).1.stack.calls = m.stack.calls ∧
                (m'.perform operation).1.pc = m.pc + 2 := by
  have hcalled : m.step.machine.stack.calls = m.stack.calls ++ [m.pc] := by
    rw [h.bounded.step_machine_eq hi hdone, stepped_calls]
    rfl
  refine ⟨hcalled, fun m' hrun => ?_⟩
  have hreached : m.step.machine.Reachable := h.perform .step
  have hbottom : m.stack.calls ++ [m.pc] <+: m'.stack.calls := by
    refine hrun.calls hreached ?_ (hcalled ▸ List.prefix_refl _)
    rw [List.length_append]
    exact Nat.le_refl _
  refine ⟨hbottom, fun operation hon hback => ?_⟩
  have hdepth := hrun.depth
  rcases calls_perform (hrun.reachable hreached).bounded hon with
    hsame | hopened | ⟨newest, hstep, hret, hclosed, hpc⟩
  · -- Neither a step that leaves the calls alone nor a call makes them fewer.
    unfold CallStack.depth at hdepth hback
    rw [hsame] at hback
    omega
  · unfold CallStack.depth at hdepth hback
    rw [hopened, List.length_append] at hback
    omega
  · unfold CallStack.depth at hback
    -- The open calls are just the prefix, so the newest of them is the call itself.
    have heq : m.stack.calls ++ [m.pc] = m'.stack.calls := by
      refine hbottom.eq_of_length_le ?_
      rw [hclosed, List.length_append, List.length_append]
      exact Nat.add_le_add_right hback 1
    obtain ⟨hbelow, hnewest⟩ := List.append_inj' (heq.trans hclosed) rfl
    cases hnewest
    exact ⟨hstep, hret, hbelow.symm, hpc⟩

/-- The outer call of a call within a call comes back after four steps. -/
theorem nested_returns :
    ((programmed nested).performAll [.step, .step, .step, .step]).stack.calls = [] ∧
      ((programmed nested).performAll [.step, .step, .step, .step]).pc = 0x202 := by
  have hroom : nested.size ≤ programRoom := by decide
  have houter : (programmed nested).wordAt 0x200 = 0x2206 :=
    wordAt_programmed (k := 0) hroom rfl rfl
  have hinner : (programmed nested).wordAt 0x206 = 0x2204 :=
    wordAt_programmed (k := 6) hroom rfl rfl
  have hfirst : (programmed nested).wordAt 0x204 = 0x00EE :=
    wordAt_programmed (k := 4) hroom rfl rfl
  have hsecond : (programmed nested).wordAt 0x208 = 0x00EE :=
    wordAt_programmed (k := 8) hroom rfl rfl
  have hstart := standsIn_programmed hroom
  have hi : (Instruction.call 0x206).EncodedBy
      ((programmed nested).wordAt (programmed nested).pc) := by
    rw [hstart.pc]
    exact houter
  obtain ⟨hcalled, hatInner⟩ := hstart.call 0x206 (by decide) houter (by decide)
  obtain ⟨hnested, hatFirst⟩ := hatInner.call 0x204 (by decide) hinner (by decide)
  obtain ⟨hreturned, hatSecond⟩ := hatFirst.ret (by decide) hfirst
  obtain ⟨hback, hatEnd⟩ := hatSecond.ret (by decide) hsecond
  obtain ⟨-, hruns⟩ := call_returns hstart.reachable hi hcalled
  rw [hstart.depth, hstart.calls, hstart.pc] at hruns
  have hrun := ((RunsAbove.start hatInner.depth_pos).step hnested hatFirst.depth_pos).step
    hreturned hatSecond.depth_pos
  obtain ⟨-, hlast⟩ := hruns _ hrun
  have hend := hlast .step hback
  rw [perform_step] at hend
  obtain ⟨-, -, hcalls, hpc⟩ := hend (Nat.le_of_eq hatEnd.depth)
  rw [performAll_step, performAll_step, performAll_step, performAll_step, performAll_nil]
  exact ⟨hcalls, hpc⟩

end Chip8.Machine
