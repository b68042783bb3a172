import Chip8.Proofs.Machine.Unseen
import Chip8.Proofs.Pacer.Frames

/-!
# Chip8.Proofs.Pacer.Schedule — the clock does not reach the program

Reports, updates, waits and traces come between the turns of a machine as the clock has
it. None of them reaches the program: whatever comes in between, the machine goes through
the turns that it would take alone with the same keys (`Machine.runOn`).

The mark on the picture is the only thing that a run touches between the turns, and no
step looks at it. `Follows` says that a machine is the one that was left alone, but for
the mark. `Follows.does` is the step lemma and `Follows.story` the one about runs, and
`schedule_is_unseen` puts them together for the runs of the pacer.
-/

namespace Chip8

/-! ## Keys -/

/-- The keys that a deed has held. -/
def Deed.keys? : Deed → Option Keypad
  | .turned keys _ _ => some keys
  | _ => none

/-- The keys that a host told to be held. -/
def Asked.keys? : Asked → Option Keypad
  | .keys held => some held
  | _ => none

/-- All keys that a host told to be held, in turn. -/
def answered (record : List Asked) : List Keypad := record.filterMap Asked.keys?

theorem answered_append (record later : List Asked) :
    answered (record ++ later) = answered record ++ answered later :=
  List.filterMap_append

/-- A deed asks for keys if it is a turn. -/
theorem answered_asked (deed : Deed) : answered deed.asked = deed.keys?.toList := by
  cases deed with
  | reported frames turns => rfl
  | updated quit picture => cases picture <;> rfl
  | turned keys word fault => rfl

/-- The keys in the record of deeds are those of their turns. -/
theorem answered_flatMap (deeds : List Deed) :
    answered (deeds.flatMap Deed.asked) = deeds.filterMap Deed.keys? := by
  induction deeds with
  | nil => rfl
  | cons deed rest ih =>
    rw [List.flatMap_cons, answered_append, answered_asked, ih, List.filterMap_cons]
    cases deed.keys? <;> rfl

namespace Machine

variable {m : Machine}

/-- A machine that is left alone: for each of a row of keypads the keys are set and a
step is taken, up to the first step that faults. -/
def runOn (m : Machine) : List Keypad → Progress
  | [] => m.finish
  | keys :: rest =>
    match (m.perform (.setKeys (some keys.toList))).1.step with
    | ⟨m, some fault⟩ => m.halt fault
    | ⟨m, none⟩ => m.runOn rest

/-- Setting the keys to those of a keypad succeeds. -/
theorem perform_setKeys (m : Machine) (keys : Keypad) :
    m.perform (.setKeys (some keys.toList)) = (m.hold keys, none) :=
  perform_setKeys_of_ok keys.ofList_toList m

/-- Another turn is taken if none faulted. -/
theorem runOn_concat {row : List Keypad} (h : (m.runOn row).fault = none) (keys : Keypad) :
    m.runOn (row ++ [keys]) = ((m.runOn row).machine.hold keys).step := by
  -- By induction on the keypads from the front. A fault on the way would have ended the row.
  induction row generalizing m with
  | nil =>
    simp only [List.nil_append, runOn, perform_setKeys, finish]
    rcases (m.hold keys).step with ⟨left, _ | fault⟩ <;> rfl
  | cons first rest ih =>
    simp only [List.cons_append, runOn] at h ⊢
    rcases hstep : (m.perform (.setKeys (some first.toList))).1.step with ⟨left, _ | fault⟩
    · simp only [hstep] at h
      exact ih h
    · simp only [hstep] at h
      cases h

/-- A machine that is left alone keeps its bounds. -/
theorem Bounded.runOn (hm : m.Bounded) (row : List Keypad) : (m.runOn row).machine.Bounded := by
  induction row generalizing m with
  | nil => exact hm
  | cons keys rest ih =>
    have hstep := (hm.perform (.setKeys (some keys.toList))).step
    unfold Machine.runOn
    split
    · rename_i hturn
      rw [hturn] at hstep
      exact hstep
    · rename_i hturn
      rw [hturn] at hstep
      exact ih hstep

end Machine

namespace Pacer

variable {τ σ : Type} {H : Host σ} {m : Machine} {p q : Pacer τ (σ × List Asked)} {deed : Deed}

/-! ## Turns -/

/-- The machine of a pacer, but for the mark on its picture, is the machine that was left
alone with the keys that the host told, and the last turn of that one had this fault. -/
structure Follows (m : Machine) (p : Pacer τ (σ × List Asked)) (fault : Option Fault) : Prop where
  machine :
    p.machine.settleDisplay = (m.runOn (answered p.host.2)).machine.settleDisplay
  fault : (m.runOn (answered p.host.2)).fault = fault

/-- What is not a turn settles the picture at most. -/
theorem Follows.quiet (h : Follows m p none)
    (hmachine : q.machine.settleDisplay = p.machine.settleDisplay)
    (hrecord : q.host.2 = p.host.2 ++ deed.asked) (hkeys : deed.keys? = none) :
    Follows m q none := by
  have hanswered : answered q.host.2 = answered p.host.2 := by
    rw [hrecord, answered_append, answered_asked, hkeys]
    exact List.append_nil _
  constructor
  · rw [hmachine, hanswered]
    exact h.machine
  · rw [hanswered]
    exact h.fault

/-- An update does no more to a machine than to settle its picture. -/
theorem updated_settled (H : Host σ) (p : Pacer τ σ) (next : τ) :
    (p.updated H next).machine.settleDisplay = p.machine.settleDisplay := by
  rw [updated_machine]
  split <;> rfl

/-- Every deed keeps the machine in step with the one that is left alone. -/
theorem Follows.does (hm : m.Bounded) (h : Follows m p none) (hdoes : Does H.recording p deed q) :
    Follows m q deed.fault? := by
  have hrecord := hdoes.record
  cases hdoes with
  | report next => exact h.quiet rfl hrecord rfl
  | update next hpump => exact h.quiet (updated_settled H.recording p next) hrecord rfl
  | quit hpump => exact h.quiet (updated_settled H.recording p p.nextDisplay) hrecord rfl
  | turn =>
    obtain ⟨hmachine, hfault⟩ := cycle_step H.recording p
    have hrun : m.runOn (answered (p.cycle H.recording).1.host.2) =
        ((m.runOn (answered p.host.2)).machine.hold (H.recording.keys p.host).2).step := by
      rw [hrecord, answered_append]
      exact Machine.runOn_concat h.fault _
    -- The keys are set on both machines, and neither step looks at the mark.
    have hheld : (p.machine.hold (H.recording.keys p.host).2).settleDisplay =
        ((m.runOn (answered p.host.2)).machine.hold (H.recording.keys p.host).2).settleDisplay :=
      congrArg (fun m : Machine => m.hold (H.recording.keys p.host).2) h.machine
    have hbounded :
        ((m.runOn (answered p.host.2)).machine.hold (H.recording.keys p.host).2).Bounded :=
      { hm.runOn (answered p.host.2) with }
    obtain ⟨hsame, hfaults⟩ := hbounded.step_settled hheld
    refine ⟨?_, ?_⟩
    · rw [hmachine, hrun]
      exact hsame
    · show _ = (p.cycle H.recording).2
      rw [hfault, hrun]
      exact hfaults.symm

/-- A run that goes on keeps the machine in step. -/
theorem Follows.story (hm : m.Bounded) {moments : List (Moment τ (σ × List Asked))}
    (h : Follows m p none) (hstory : Story H.recording p moments q) (hongoing : Ongoing moments) :
    Follows m q none := by
  refine Story.carry (P := fun p _ => Follows m p none) (fun deed => deed.isLast = false) ?_ [] h
    hstory hongoing
  -- What goes on holds no fault, so that it carries over to the next deed.
  intro p q deeds deed h hdoes hlast
  have hnext := h.does hm hdoes
  rw [fault?_of_ongoing hlast] at hnext
  exact hnext

/-! ## Faults -/

/-- A deed that faults ends the run. -/
theorem isLast_of_fault? {cause : Fault} (h : deed.fault? = some cause) : deed.isLast = true := by
  cases deed with
  | reported | updated => cases h
  | turned keys word fault => exact Option.isSome_iff_exists.mpr ⟨cause, h⟩

/-- A run ends with the turn that faults. -/
theorem Closes.of_fault {ending : Ending} {cause : Fault} {before : List (Moment τ σ)}
    {moment : Moment τ σ} {r : Pacer τ σ} (h : Closes (before ++ [moment]) r ending)
    (hfault : moment.deed.fault? = some cause) :
    ending = .fault cause ∧ r = moment.pacer := by
  cases ending with
  -- The last deed of a run that the user ends is an update, which is no turn.
  | quit =>
    obtain ⟨between, picture, heq⟩ := h
    obtain ⟨-, hlast⟩ := List.append_inj' heq rfl
    cases hlast
    cases hfault
  | fault cause' =>
    obtain ⟨between, keys, word, heq⟩ := h
    obtain ⟨-, hlast⟩ := List.append_inj' heq rfl
    cases hlast
    cases hfault
    exact ⟨rfl, rfl⟩
  | endlessTime | clockStopped =>
    have hongoing : moment.deed.isLast = false :=
      h moment (List.mem_append_right before List.mem_cons_self)
    rw [isLast_of_fault? hfault] at hongoing
    cases hongoing

/-! ## All runs -/

variable [Time τ]

/-- At each moment of a run the machine is the one that was left alone. -/
theorem follows_of_mem (hm : m.Bounded) (H : Host σ) (p : Pacer τ (σ × List Asked)) (state : σ)
    (readings : List τ) {moment : Moment τ (σ × List Asked)}
    (hmem : moment ∈
      { p with machine := m, host := (state, []) }.moments H.recording .ready readings) :
    Follows m moment.pacer moment.deed.fault? := by
  obtain ⟨before, after, heq⟩ := List.append_of_mem hmem
  have hstory := (story_closes H.recording { p with machine := m, host := (state, []) } .ready
    readings).1
  rw [heq] at hstory
  obtain ⟨q, hbefore, hongoing, hdoes⟩ := hstory.split
  have hstart : Follows m { p with machine := m, host := (state, []) } none := ⟨rfl, rfl⟩
  exact (hstart.story hm hbefore hongoing).does hm hdoes

/-- The schedule of a run is unseen by the program, on any host, at any rate, at any
readings of the clock, and with or without a trace. At each moment of the run,

* the machine, but for the mark on its picture, is the one that was left alone with the
  keys of the turns so far;
* the turn faults exactly if the machine that was left alone does, with the same fault, and
  the run ends with this fault and this machine.

So two runs in which the hosts told the same keys so far have the same machine, but for
the mark, and the same fault. -/
theorem schedule_is_unseen (H : Host σ) (p : Pacer τ (σ × List Asked)) (state : σ)
    (random : RandomSource) (operations : List Machine.Operation) (readings : List τ) :
    let m := (Machine.fresh random).performAll operations
    let start := { p with machine := m, host := (state, []) }
    let story := start.moments H.recording .ready readings
    let outcome := start.run H.recording readings
    Story H.recording start story outcome.pacer ∧
      (∀ before moment after, story = before ++ moment :: after →
        let keys := (deedsOf (before ++ [moment])).filterMap Deed.keys?
        answered moment.pacer.host.2 = keys ∧
          moment.pacer.machine.settleDisplay = (m.runOn keys).machine.settleDisplay ∧
          moment.deed.fault? = (m.runOn keys).fault ∧
          ∀ cause, (m.runOn keys).fault = some cause →
            after = [] ∧ outcome.ending = .fault cause ∧ outcome.pacer = moment.pacer) ∧
      ∀ (τ' σ' : Type) [Time τ'] (H' : Host σ') (p' : Pacer τ' (σ' × List Asked)) (state' : σ')
        (readings' : List τ'),
        let start' := { p' with machine := m, host := (state', []) }
        ∀ moment ∈ story, ∀ moment' ∈ start'.moments H'.recording .ready readings',
          answered moment.pacer.host.2 = answered moment'.pacer.host.2 →
            moment.pacer.machine.settleDisplay = moment'.pacer.machine.settleDisplay ∧
              moment.deed.fault? = moment'.deed.fault? := by
  intro m start story outcome
  have hm : m.Bounded := ((Machine.Reachable.fresh random).performAll operations).bounded
  obtain ⟨hstory, hcloses⟩ : Story H.recording start story outcome.pacer ∧
      Closes story outcome.pacer outcome.ending := story_closes H.recording start .ready readings
  refine ⟨hstory, ?_, ?_⟩
  · intro before moment after heq keys
    have hfollows : Follows m moment.pacer moment.deed.fault? := by
      refine follows_of_mem hm H p state readings ?_
      show moment ∈ story
      rw [heq]
      exact List.mem_append_right before List.mem_cons_self
    -- The moment is reached by the deeds before it, and these asked for the keys.
    rw [heq] at hstory
    have hkeys : answered moment.pacer.host.2 = keys := by
      have hrecord : moment.pacer.host.2 = (deedsOf (before ++ [moment])).flatMap Deed.asked :=
        hstory.upTo.record
      rw [hrecord, answered_flatMap]
    obtain ⟨hmachine, hfault⟩ := hfollows
    rw [hkeys] at hmachine hfault
    refine ⟨hkeys, hmachine, hfault.symm, fun cause hcause => ?_⟩
    have hlast : moment.deed.fault? = some cause := hfault.symm.trans hcause
    -- Nothing comes after a turn that faults.
    have hafter : after = [] := hstory.nil_of_isLast (isLast_of_fault? hlast)
    have hends : Closes (before ++ [moment]) outcome.pacer outcome.ending := by
      rw [← hafter, ← heq]
      exact hcloses
    exact ⟨hafter, hends.of_fault hlast⟩
  · -- Both are compared with the machine that was left alone.
    intro τ' σ' _ H' p' state' readings' start' moment hmem moment' hmem' hkeys
    have hfirst := follows_of_mem hm H p state readings hmem
    have hsecond := follows_of_mem hm H' p' state' readings' hmem'
    refine ⟨?_, ?_⟩
    · rw [hfirst.machine, hsecond.machine, hkeys]
    · rw [← hfirst.fault, ← hsecond.fault, hkeys]

end Pacer

end Chip8
