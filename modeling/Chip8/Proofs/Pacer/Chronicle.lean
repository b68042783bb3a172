import Chip8.Pacer
import Chip8.Proofs.Machine.Turn

/-!
# Chip8.Proofs.Pacer.Chronicle — what a run does, one thing after the other

A reading of the clock may lead to a report, an update of what is shown and a turn
of the machine. `Pacer.moments` lists all that a run does, each `Deed` with the pacer
right after it, and `Pacer.Does` says what a deed makes of a pacer, whatever the clock
shows. So the clock decides only which deeds there are:

* `story_closes` — the moments of a run lead, deed by deed, from its first pacer to
  its last. Nothing comes after a fault or after the user wants to quit, and the last
  moment shows how the run ends (`Closes`).
* `Story.asked` — a host that keeps a record of what it is asked has been asked for
  just these deeds.
-/

namespace Chip8

/-! ## Deeds -/

/-- One thing that a run does. -/
inductive Deed where
  /-- It reports, and starts counting again. -/
  | reported (frames turns : Nat)
  /-- It takes in what the user did, and brings what is shown up to date. The picture
  is handed over if there is a new one. -/
  | updated (quit : Bool) (picture : Option (Array UInt8))
  /-- The machine takes a turn on a word, with the keys that are held. -/
  | turned (keys : Keypad) (word : Int) (fault : Option Fault)

/-- Whether a run is over with a deed. -/
def Deed.isLast : Deed → Bool
  | .reported _ _ => false
  | .updated quit _ => quit
  | .turned _ _ fault => fault.isSome

/-! ## Records -/

/-- What a host is asked for, and what it answers. -/
inductive Asked where
  | pump (quit : Bool)
  | keys (held : Keypad)
  | report (r : Report)
  | draw (picture : Array UInt8)
  | refresh

/-- What a deed asks of the host, but for beeps and lines of a trace. -/
def Deed.asked : Deed → List Asked
  | .reported frames turns => [.report (.ofCounts frames turns)]
  | .updated quit picture => .pump quit :: picture.toList.map .draw ++ [.refresh]
  | .turned keys _ _ => [.keys keys]

/-- A host that keeps a record. Beeps and lines of a trace are not in it. -/
def Host.recording {σ : Type} (H : Host σ) : Host (σ × List Asked) where
  pump s := (((H.pump s.1).1, s.2 ++ [.pump (H.pump s.1).2]), (H.pump s.1).2)
  keys s := (((H.keys s.1).1, s.2 ++ [.keys (H.keys s.1).2]), (H.keys s.1).2)
  report s r := (H.report s.1 r, s.2 ++ [.report r])
  draw s picture := (H.draw s.1 picture, s.2 ++ [.draw picture])
  refresh s := (H.refresh s.1, s.2 ++ [.refresh])
  beep s := (H.beep s.1, s.2)
  print s line := (H.print s.1 line, s.2)

/-- A deed, and the pacer right after it. -/
structure Moment (τ σ : Type) where
  deed : Deed
  pacer : Pacer τ σ

/-- The deeds of a list of moments. -/
def deedsOf {τ σ : Type} (moments : List (Moment τ σ)) : List Deed := moments.map (·.deed)

namespace Pacer

variable {τ σ : Type} {H : Host σ} {p q r : Pacer τ σ} {moment : Moment τ σ}
  {before after : List (Moment τ σ)}

/-! ## What a deed makes of a pacer -/

/-- The picture that the next update hands over, if it has changed. -/
def picture? (p : Pacer τ σ) : Option (Array UInt8) :=
  if p.machine.display.changed then some p.machine.display.frame else none

/-- The pacer after it took in what the user did and brought what is shown up to date.
The next update is due at the moment `next`. -/
def updated (H : Host σ) (p : Pacer τ σ) (next : τ) : Pacer τ σ :=
  { p with host := (H.pump p.host).1, nextDisplay := next }.refresh H

/-- From the pacer `p` a deed leads to another pacer. -/
inductive Does (H : Host σ) (p : Pacer τ σ) : Deed → Pacer τ σ → Prop
  | report (next : τ) :
    Does H p (.reported p.frames p.turns)
      { p.report H (.ofCounts p.frames p.turns) with nextReport := next, frames := 0, turns := 0 }
  | update (next : τ) (h : (H.pump p.host).2 = false) :
    Does H p (.updated false p.picture?)
      { p.updated H next with frames := (p.updated H next).frames + 1 }
  | quit (h : (H.pump p.host).2 = true) :
    Does H p (.updated true p.picture?) (p.updated H p.nextDisplay)
  | turn :
    Does H p (.turned (H.keys p.host).2 (p.machine.wordAt p.machine.pc) (p.cycle H).2) (p.cycle H).1

/-- An update takes the mark off the picture that it hands over. -/
theorem updated_machine (H : Host σ) (p : Pacer τ σ) (next : τ) :
    (p.updated H next).machine =
      if p.machine.display.changed then p.machine.settleDisplay else p.machine := by
  unfold updated refresh handOver
  split <;> rfl

theorem printLine_machine (H : Host σ) (p : Pacer τ σ) : (p.printLine H).machine = p.machine := by
  unfold printLine
  split <;> rfl

/-- A turn counts what its step completes, and changes nothing more than this step. -/
theorem cycle_eq (H : Host σ) (p : Pacer τ σ) :
    p.cycle H =
      let stepped := ((p.holdKeys H).printLine H).step H
      ({ stepped.1 with turns := stepped.1.turns + stepped.2.isNone.toNat }, stepped.2) := by
  unfold cycle
  split
  · rename_i hcycle
    rw [hcycle]
    rfl
  · rename_i hcycle
    rw [hcycle]
    rfl

/-- A turn is a step of the machine with the keys that are held. -/
theorem cycle_step (H : Host σ) (p : Pacer τ σ) :
    (p.cycle H).1.machine = (p.machine.hold (H.keys p.host).2).step.machine ∧
      (p.cycle H).2 = (p.machine.hold (H.keys p.host).2).step.fault := by
  have hmachine : ((p.holdKeys H).printLine H).machine = p.machine.hold (H.keys p.host).2 :=
    printLine_machine H _
  rw [cycle_eq, ← hmachine]
  exact ⟨rfl, rfl⟩

/-! ## Records -/

/-- An update is recorded as the deed says: the pump with its answer, then the picture that is
handed over, if one is, and then the refresh. -/
theorem updated_record (H : Host σ) (p : Pacer τ (σ × List Asked)) (next : τ) :
    (p.updated H.recording next).host.2 =
      p.host.2 ++ (Deed.updated (H.recording.pump p.host).2 p.picture?).asked := by
  unfold updated refresh handOver picture? Deed.asked
  split <;> simp [Host.recording, *]

theorem printLine_record (H : Host σ) (p : Pacer τ (σ × List Asked)) :
    (p.printLine H.recording).host.2 = p.host.2 := by
  unfold printLine
  split <;> rfl

/-- A step asks for a beep at most, and beeps are not in the record. -/
theorem step_record (H : Host σ) (p : Pacer τ (σ × List Asked)) :
    (p.step H.recording).1.host.2 = p.host.2 := by
  unfold step
  simp only
  split <;> rfl

/-- A turn is recorded as its keys. -/
theorem cycle_record (H : Host σ) (p : Pacer τ (σ × List Asked)) :
    (p.cycle H.recording).1.host.2 = p.host.2 ++ [.keys (H.recording.keys p.host).2] := by
  rw [cycle_eq]
  exact (step_record H _).trans (printLine_record H _)

/-- A deed asks of the host what it says, and nothing else is recorded. -/
theorem Does.record {p q : Pacer τ (σ × List Asked)} {deed : Deed}
    (h : Does H.recording p deed q) : q.host.2 = p.host.2 ++ deed.asked := by
  cases h with
  | report next => rfl
  | update next hpump =>
    -- The deed tells what the pump answered.
    have hrecord := updated_record H p next
    rw [hpump] at hrecord
    exact hrecord
  | quit hpump =>
    have hrecord := updated_record H p p.nextDisplay
    rw [hpump] at hrecord
    exact hrecord
  | turn => exact cycle_record H p

/-! ## Stories -/

/-- The moments lead, deed by deed, from one pacer to another. Nothing comes after the
last deed of a run. -/
inductive Story (H : Host σ) : Pacer τ σ → List (Moment τ σ) → Pacer τ σ → Prop
  | nil (p : Pacer τ σ) : Story H p [] p
  | cons {p q : Pacer τ σ} {moment : Moment τ σ} {rest : List (Moment τ σ)} :
    Does H p moment.deed moment.pacer → (moment.deed.isLast = true → rest = []) →
      Story H moment.pacer rest q → Story H p (moment :: rest) q

/-- No deed of the moments is the last of a run. -/
def Ongoing (moments : List (Moment τ σ)) : Prop :=
  ∀ moment ∈ moments, moment.deed.isLast = false

theorem ongoing_nil : Ongoing ([] : List (Moment τ σ)) := fun _ hm => (List.not_mem_nil hm).elim

theorem ongoing_single (h : moment.deed.isLast = false) : Ongoing [moment] :=
  List.forall_mem_singleton.mpr h

theorem Ongoing.append (h : Ongoing before) (h' : Ongoing after) : Ongoing (before ++ after) :=
  List.forall_mem_append.mpr ⟨h, h'⟩

theorem Story.single (h : Does H p moment.deed moment.pacer) : Story H p [moment] moment.pacer :=
  .cons h (fun _ => rfl) (.nil _)

/-- Stories follow one another if the first does not end the run. -/
theorem Story.append (h : Story H p before q) (hongoing : Ongoing before)
    (h' : Story H q after r) : Story H p (before ++ after) r := by
  -- By induction on the first story, which puts its deeds before the second one by one.
  induction h with
  | nil => exact h'
  | @cons p q moment rest hdoes hlast _ ih =>
    obtain ⟨hfirst, hrest⟩ := List.forall_mem_cons.mp hongoing
    refine .cons hdoes ?_ (ih hrest h')
    intro htrue
    rw [hfirst] at htrue
    cases htrue

/-- A story can be taken up at each of its moments. -/
theorem Story.split (h : Story H p (before ++ moment :: after) r) :
    ∃ q, Story H p before q ∧ Ongoing before ∧ Does H q moment.deed moment.pacer := by
  induction before generalizing p with
  | nil =>
    cases h with
    | cons hdoes _ _ => exact ⟨p, .nil p, ongoing_nil, hdoes⟩
  | cons first between ih =>
    cases h with
    | cons hdoes hlast hrest =>
      obtain ⟨q, hstory, hongoing, hnext⟩ := ih hrest
      -- More follows the first moment, so it is not the last of a run.
      have hmore : between ++ moment :: after ≠ [] :=
        List.append_ne_nil_of_right_ne_nil _ (List.cons_ne_nil _ _)
      have hfirst : first.deed.isLast = false := Bool.eq_false_iff.mpr (mt hlast hmore)
      refine ⟨q, .cons hdoes ?_ hstory, List.forall_mem_cons.mpr ⟨hfirst, hongoing⟩, hnext⟩
      intro htrue
      rw [hfirst] at htrue
      cases htrue

/-- Up to each of its moments, a story is a shorter one. -/
theorem Story.upTo (h : Story H p (before ++ moment :: after) r) :
    Story H p (before ++ [moment]) moment.pacer := by
  obtain ⟨q, hbefore, hongoing, hdoes⟩ := h.split
  exact hbefore.append hongoing (.single hdoes)

/-- Nothing comes after the last deed of a run. -/
theorem Story.nil_of_isLast (h : Story H p (before ++ moment :: after) r)
    (hlast : moment.deed.isLast = true) : after = [] := by
  -- Each moment in front is taken off, and the deed in question comes first.
  induction before generalizing p with
  | nil =>
    cases h with
    | cons _ hends _ => exact hends hlast
  | cons first between ih =>
    cases h with
    | cons _ _ hrest => exact ih hrest

/-- What each deed of a kind carries on, a story of such deeds does. -/
theorem Story.carry {P : Pacer τ σ → List Deed → Prop} (kind : Deed → Prop)
    (hstep : ∀ {p q deeds deed}, P p deeds → Does H p deed q → kind deed → P q (deeds ++ [deed]))
    (deeds : List Deed) {moments : List (Moment τ σ)} (h : P p deeds) (hstory : Story H p moments q)
    (hkind : ∀ moment ∈ moments, kind moment.deed) : P q (deeds ++ deedsOf moments) := by
  induction hstory generalizing deeds with
  | nil p =>
    rw [deedsOf, List.map_nil, List.append_nil]
    exact h
  | @cons p q moment rest hdoes _ _ ih =>
    obtain ⟨hfirst, hrest⟩ := List.forall_mem_cons.mp hkind
    have hnext := ih _ (hstep h hdoes hfirst) hrest
    rw [List.append_assoc] at hnext
    exact hnext

/-- The last moment is an update after which the user wants to quit. -/
def Quits (moments : List (Moment τ σ)) (q : Pacer τ σ) : Prop :=
  ∃ before picture, moments = before ++ [⟨.updated true picture, q⟩]

theorem Quits.append (h : Quits after q) (before : List (Moment τ σ)) :
    Quits (before ++ after) q := by
  obtain ⟨between, picture, rfl⟩ := h
  exact ⟨before ++ between, picture, (List.append_assoc _ _ _).symm⟩

/-- The last moment is a turn that faults. -/
def Faults (moments : List (Moment τ σ)) (cause : Fault) (q : Pacer τ σ) : Prop :=
  ∃ before keys word, moments = before ++ [⟨.turned keys word (some cause), q⟩]

theorem Faults.append {cause : Fault} (h : Faults after cause q) (before : List (Moment τ σ)) :
    Faults (before ++ after) cause q := by
  obtain ⟨between, keys, word, rfl⟩ := h
  exact ⟨before ++ between, keys, word, (List.append_assoc _ _ _).symm⟩

/-- How a run ends shows in its last moment. No deed ends a run that the clock ends. -/
def Closes (moments : List (Moment τ σ)) (q : Pacer τ σ) : Ending → Prop
  | .quit => Quits moments q
  | .fault cause => Faults moments cause q
  | .endlessTime | .clockStopped => Ongoing moments

/-- How a run ends is the same with more before it that goes on. -/
theorem Closes.append {ending : Ending} (h : Closes after q ending) (hongoing : Ongoing before) :
    Closes (before ++ after) q ending := by
  cases ending with
  | quit => exact Quits.append h before
  | fault cause => exact Faults.append h before
  | endlessTime | clockStopped => exact hongoing.append h

/-- The record of a story is what its deeds ask. -/
theorem Story.record {p q : Pacer τ (σ × List Asked)} {moments : List (Moment τ (σ × List Asked))}
    (h : Story H.recording p moments q) :
    q.host.2 = p.host.2 ++ (deedsOf moments).flatMap Deed.asked := by
  induction h with
  | nil p => simp [deedsOf]
  | cons hdoes _ _ ih =>
    rw [ih, hdoes.record]
    simp [deedsOf]

/-! ## The moments of a run -/

/-- The turn of the machine. -/
def cycleMoment (H : Host σ) (p : Pacer τ σ) : Moment τ σ :=
  ⟨.turned (H.keys p.host).2 (p.machine.wordAt p.machine.pc) (p.cycle H).2, (p.cycle H).1⟩

/-- A turn is a story of one moment, which ends the run exactly if the turn faults. -/
theorem story_cycle (H : Host σ) (p : Pacer τ σ) :
    Story H p [p.cycleMoment H] (p.cycle H).1 ∧
      ((p.cycle H).2 = none → Ongoing [p.cycleMoment H]) ∧
      ∀ cause, (p.cycle H).2 = some cause → Faults [p.cycleMoment H] cause (p.cycle H).1 := by
  refine ⟨.single .turn, fun h => ongoing_single ?_, fun cause h => ?_⟩
  · show (p.cycle H).2.isSome = false
    rw [h]
    rfl
  · rw [cycleMoment, h]
    exact ⟨[], _, _, rfl⟩

variable [Time τ] {now : τ} {phase : Phase τ}

/-- The report that is due at the moment `now`, if one is. -/
def reportMoments (H : Host σ) (p : Pacer τ σ) (now : τ) : List (Moment τ σ) :=
  if Time.le p.nextReport now then
    [⟨.reported p.frames p.turns, (p.reportIfDue H now).1⟩]
  else []

/-- The update that is due at the moment `now`, if one is. -/
def updateMoments (H : Host σ) (p : Pacer τ σ) (now : τ) : List (Moment τ σ) :=
  if Time.le p.nextDisplay now then
    [⟨.updated (H.pump p.host).2 p.picture?, (p.displayIfDue H now).1⟩]
  else []

/-- What is done at the moment `now`. -/
def turnMoments (H : Host σ) (p : Pacer τ σ) (now : τ) : List (Moment τ σ) :=
  match p.reportIfDue H now with
  | (_, true) => []
  | (q, false) =>
    p.reportMoments H now ++ (q.updateMoments H now ++
      match q.displayIfDue H now with
      | (_, true) => []
      | (q, false) => [q.cycleMoment H])

/-- What is done on a reading of the clock. -/
def reactMoments (H : Host σ) (p : Pacer τ σ) (phase : Phase τ) (now : τ) : List (Moment τ σ) :=
  match phase with
  | .waiting _ => []
  | .ready => p.turnMoments H now

/-- What is done on the readings of a run. -/
def moments (H : Host σ) (p : Pacer τ σ) (phase : Phase τ) : List τ → List (Moment τ σ)
  | [] => []
  | now :: rest =>
    p.reactMoments H phase now ++
      match p.react H phase now with
      | (_, .error _) => []
      | (q, .ok phase) => q.moments H phase rest

/-! ## The story of a run -/

/-- If no next report can be due, nothing is reported. -/
theorem reportIfDue_endless (h : p.reportIfDue H now = (q, true)) : q = p := by
  unfold reportIfDue at h
  by_cases hdue : Time.le p.nextReport now = true
  · rw [if_pos hdue] at h
    cases hnext : Time.nextSecond? now with
    | none =>
      rw [hnext] at h
      cases h
      rfl
    | some next =>
      rw [hnext] at h
      cases h
  · rw [if_neg hdue] at h
    cases h

/-- A report is a story that goes on, whether one is due or not. -/
theorem story_report (h : p.reportIfDue H now = (q, false)) :
    Story H p (p.reportMoments H now) q ∧ Ongoing (p.reportMoments H now) := by
  unfold reportMoments
  rw [h]
  unfold reportIfDue at h
  by_cases hdue : Time.le p.nextReport now = true
  · rw [if_pos hdue] at h ⊢
    cases hnext : Time.nextSecond? now with
    | none =>
      rw [hnext] at h
      cases h
    | some next =>
      rw [hnext] at h
      cases h
      exact ⟨.single (.report next), ongoing_single rfl⟩
  · rw [if_neg hdue] at h ⊢
    cases h
    exact ⟨.nil p, ongoing_nil⟩

/-- An update is a story, whether one is due or not, and shows whether the user wants to quit.
-/
theorem story_update {quit : Bool} (h : p.displayIfDue H now = (q, quit)) :
    Story H p (p.updateMoments H now) q ∧ (quit = false → Ongoing (p.updateMoments H now)) ∧
      (quit = true → Quits (p.updateMoments H now) q) := by
  unfold updateMoments
  rw [h]
  unfold displayIfDue at h
  by_cases hdue : Time.le p.nextDisplay now = true
  · rw [if_pos hdue] at h ⊢
    cases hpump : (H.pump p.host).2 with
    | false =>
      simp only [hpump] at h
      cases h
      refine ⟨.single (.update _ hpump), fun _ => ongoing_single rfl, ?_⟩
      rintro ⟨⟩
    | true =>
      simp only [hpump, if_true] at h
      cases h
      refine ⟨.single (.quit hpump), ?_, fun _ => ⟨[], _, rfl⟩⟩
      rintro ⟨⟩
  · rw [if_neg hdue] at h ⊢
    cases h
    refine ⟨.nil p, fun _ => ongoing_nil, ?_⟩
    rintro ⟨⟩

/-- What is done on a reading of the clock is a story: a report, an update and a turn, as far
as the run gets. -/
theorem story_turn {ending : Option Ending} (h : p.turn H now = (q, ending)) :
    Story H p (p.turnMoments H now) q ∧ (ending = none → Ongoing (p.turnMoments H now)) ∧
      ∀ e, ending = some e → Closes (p.turnMoments H now) q e := by
  unfold turn at h
  unfold turnMoments
  rcases hreport : p.reportIfDue H now with ⟨p₁, endless⟩
  rw [hreport] at h
  cases endless with
  | true =>
    -- After an endless time the run is over, and nothing was done.
    cases h
    rw [reportIfDue_endless hreport]
    refine ⟨.nil p, fun _ => ongoing_nil, ?_⟩
    rintro _ ⟨⟩
    exact ongoing_nil
  | false =>
    obtain ⟨hreported, hongoing⟩ := story_report hreport
    rcases hdisplay : p₁.displayIfDue H now with ⟨p₂, quit⟩
    obtain ⟨hupdated, hgoes, hquits⟩ := story_update hdisplay
    simp only [hdisplay] at h ⊢
    cases quit with
    | true =>
      -- The user wants to quit, and the machine takes no turn.
      cases h
      rw [List.append_nil]
      refine ⟨hreported.append hongoing hupdated, ?_, ?_⟩
      · rintro ⟨⟩
      · rintro _ ⟨⟩
        exact (hquits rfl).append _
    | false =>
      obtain ⟨hcycled, hcycles, hfaults⟩ := story_cycle H p₂
      have hstory := hreported.append hongoing (hupdated.append (hgoes rfl) hcycled)
      rcases hcycle : p₂.cycle H with ⟨p₃, fault⟩
      rw [hcycle] at hstory hcycles hfaults
      simp only [hcycle] at h
      cases fault with
      | none =>
        cases h
        refine ⟨hstory, fun _ => hongoing.append ((hgoes rfl).append (hcycles rfl)), ?_⟩
        rintro _ ⟨⟩
      | some cause =>
        cases h
        refine ⟨hstory, ?_, ?_⟩
        · rintro ⟨⟩
        · rintro _ ⟨⟩
          exact ((hfaults _ rfl).append _).append _

/-- So it is on any reading, since nothing is done while a wait goes on. -/
theorem story_react {next : Except Ending (Phase τ)} (h : p.react H phase now = (q, next)) :
    Story H p (p.reactMoments H phase now) q ∧
      (∀ phase', next = .ok phase' → Ongoing (p.reactMoments H phase now)) ∧
      ∀ e, next = .error e → Closes (p.reactMoments H phase now) q e := by
  cases phase with
  -- A wait does nothing, and does not end a run.
  | waiting deadline =>
    cases h
    refine ⟨.nil p, fun _ _ => ongoing_nil, ?_⟩
    rintro _ ⟨⟩
  | ready =>
    rcases hturn : p.turn H now with ⟨p₁, ending⟩
    obtain ⟨hstory, hongoing, hcloses⟩ := story_turn hturn
    simp only [react, hturn] at h
    cases ending with
    | none =>
      cases h
      refine ⟨hstory, fun _ _ => hongoing rfl, ?_⟩
      rintro _ ⟨⟩
    | some ending =>
      cases h
      refine ⟨hstory, ?_, ?_⟩
      · rintro _ ⟨⟩
      · rintro _ ⟨⟩
        exact hcloses ending rfl

/-- The moments of a run lead from its first pacer to its last, and the last of them shows
how the run ends. -/
theorem story_closes (H : Host σ) (p : Pacer τ σ) (phase : Phase τ) (readings : List τ) :
    Story H p (p.moments H phase readings) (p.runFrom H phase readings).pacer ∧
      Closes (p.moments H phase readings) (p.runFrom H phase readings).pacer
        (p.runFrom H phase readings).ending := by
  -- Each reading adds its own moments, and the rest of the run starts where they lead.
  induction readings generalizing p phase with
  | nil => exact ⟨.nil p, ongoing_nil⟩
  | cons now rest ih =>
    rcases hreact : p.react H phase now with ⟨q, next⟩
    obtain ⟨hstory, hongoing, hcloses⟩ := story_react hreact
    simp only [moments, runFrom, hreact]
    cases next with
    | error ending =>
      rw [List.append_nil]
      exact ⟨hstory, hcloses ending rfl⟩
    | ok phase' =>
      obtain ⟨hrest, hends⟩ := ih q phase'
      have hgoes := hongoing phase' rfl
      exact ⟨hstory.append hgoes hrest, hends.append hgoes⟩

/-- A run that the user ends does so with an update. -/
theorem story_runFrom (H : Host σ) (p : Pacer τ σ) (phase : Phase τ) (readings : List τ) :
    Story H p (p.moments H phase readings) (p.runFrom H phase readings).pacer ∧
      ((p.runFrom H phase readings).ending = .quit →
        Quits (p.moments H phase readings) (p.runFrom H phase readings).pacer) := by
  obtain ⟨hstory, hcloses⟩ := story_closes H p phase readings
  refine ⟨hstory, fun hquit => ?_⟩
  rw [hquit] at hcloses
  exact hcloses

end Pacer

end Chip8
