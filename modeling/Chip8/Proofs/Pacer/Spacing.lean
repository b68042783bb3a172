import Chip8.Proofs.Pacer.Counting
import Mathlib.Algebra.Order.Ring.Rat
import Mathlib.Tactic.Linarith

/-!
# Chip8.Proofs.Pacer.Spacing — a run is never faster than asked

One clock governs the turns, the updates and the reports of a run. A run is looked at lap by
lap (`Lap`): a lap starts with the reading that no wait holds back any more, and all that the
pacer does until the next one starts belongs to it. With exact readings,

* `turn_inv` — says once what a lap does: it reports if a report is due, it updates if an
  update is due, and unless the user wants to quit the machine takes one turn.
* `Scheduled.laps` — what is done in a lap whenever it is due, and is due again only after a
  while, is done in laps that are that far apart. Reports and updates are both of this kind.
* `laps_apart` — a wait puts off the next lap for as long as a turn lasts.

`never_faster_than_asked` puts these together: over any number of laps the gaps add up
(`gaps_add_up`).
-/

namespace Chip8

/-! ## Laps -/

/-- Whether a host is asked what the user did. -/
def Asked.isPump : Asked → Bool
  | .pump _ => true
  | _ => false

/-- Whether a host is given a report. -/
def Asked.isReport : Asked → Bool
  | .report _ => true
  | _ => false

/-- What a run does from one turn to the next. -/
structure Lap (τ σ : Type) where
  /-- The reading of the clock that it starts with. -/
  start : τ
  moments : List (Moment τ σ)

namespace Lap

variable {τ σ : Type}

/-- What is done in a lap. -/
def deeds (lap : Lap τ σ) : List Deed := deedsOf lap.moments

/-- What a host is asked for in a lap. -/
def asked (lap : Lap τ σ) : List Asked := lap.deeds.flatMap Deed.asked

/-- Whether a host is asked in a lap what the user did. -/
def pumps (lap : Lap τ σ) : Bool := lap.asked.any Asked.isPump

/-- Whether a host is given a report in a lap. -/
def reports (lap : Lap τ σ) : Bool := lap.asked.any Asked.isReport

end Lap

namespace Pacer

section Laps

variable {τ σ : Type} [Time τ] {H : Host σ} {p q : Pacer τ σ} {now : τ} {rest : List τ}

/-- The lap that starts at the moment `now`. -/
def lapAt (H : Host σ) (p : Pacer τ σ) (now : τ) : Lap τ σ := ⟨now, p.turnMoments H now⟩

/-- The lap that a reading of the clock starts, if it starts one. -/
def reactLaps (H : Host σ) (p : Pacer τ σ) (phase : Phase τ) (now : τ) : List (Lap τ σ) :=
  match phase with
  | .waiting _ => []
  | .ready => [p.lapAt H now]

/-- The laps of a run. -/
def laps (H : Host σ) (p : Pacer τ σ) (phase : Phase τ) : List τ → List (Lap τ σ)
  | [] => []
  | now :: rest =>
    p.reactLaps H phase now ++
      match p.react H phase now with
      | (_, .error _) => []
      | (q, .ok phase) => q.laps H phase rest

/-- All that a run does is done in its laps. -/
theorem flatMap_laps (H : Host σ) (p : Pacer τ σ) (phase : Phase τ) (readings : List τ) :
    (p.laps H phase readings).flatMap Lap.moments = p.moments H phase readings := by
  -- By induction on the readings, each of which starts one lap at most.
  induction readings generalizing p phase with
  | nil => rfl
  | cons now rest ih =>
    have hfirst : (p.reactLaps H phase now).flatMap Lap.moments = p.reactMoments H phase now := by
      cases phase with
      | waiting deadline => rfl
      | ready => exact List.append_nil _
    rw [laps, moments, List.flatMap_append, hfirst]
    rcases p.react H phase now with ⟨q, ending | phase'⟩
    · rfl
    · exact congrArg _ (ih q phase')

/-- A reading while a run waits starts no lap. -/
theorem laps_of_waiting (deadline : τ) :
    p.laps H (.waiting deadline) (now :: rest) =
      p.laps H (if Time.lt now deadline then .waiting deadline else .ready) rest := rfl

/-- No lap comes after one in which a run ends. -/
theorem laps_of_ending {ending : Ending} (h : p.turn H now = (q, some ending)) :
    p.laps H .ready (now :: rest) = [p.lapAt H now] := by
  simp only [laps, reactLaps, react, h, List.append_nil]

/-- A turn that is completed starts a lap, and the other laps come after it. -/
theorem laps_of_turn (h : p.turn H now = (q, none)) :
    p.laps H .ready (now :: rest) = p.lapAt H now :: q.laps H (q.phaseAfter now) rest := by
  simp only [laps, reactLaps, react, h, List.singleton_append]

/-- Laps start with readings of the clock, in their order. -/
theorem starts_sublist (H : Host σ) (p : Pacer τ σ) (phase : Phase τ) (readings : List τ) :
    ((p.laps H phase readings).map Lap.start).Sublist readings := by
  induction readings generalizing p phase with
  | nil => exact List.Sublist.refl _
  | cons now rest ih =>
    cases phase with
    -- A reading in a wait is left out.
    | waiting deadline => exact (ih p _).cons now
    | ready =>
      rcases hturn : p.turn H now with ⟨q, _ | ending⟩
      · rw [laps_of_turn hturn]
        exact (ih q _).cons_cons now
      · rw [laps_of_ending hturn]
        exact (List.nil_sublist rest).cons_cons now

theorem start_mem_of_mem_laps {phase : Phase τ} {readings : List τ} {lap : Lap τ σ}
    (h : lap ∈ p.laps H phase readings) : lap.start ∈ readings :=
  (starts_sublist H p phase readings).subset (List.mem_map_of_mem h)

/-- A lap of a run is that of some pacer on the way. -/
theorem exists_of_mem_laps {phase : Phase τ} {readings : List τ} {lap : Lap τ σ}
    (h : lap ∈ p.laps H phase readings) : ∃ q, lap = lapAt H q lap.start := by
  -- The pacer changes from lap to lap, so the readings are taken off for all of them at once.
  induction readings generalizing p phase with
  | nil => cases h
  | cons now rest ih =>
    cases phase with
    | waiting deadline => exact ih h
    | ready =>
      rcases hturn : p.turn H now with ⟨q, _ | ending⟩
      · rw [laps_of_turn hturn] at h
        rcases List.mem_cons.mp h with rfl | h
        · exact ⟨p, rfl⟩
        · exact ih h
      · rw [laps_of_ending hturn] at h
        cases List.mem_singleton.mp h
        exact ⟨p, rfl⟩

end Laps

/-! ## What a lap does -/

theorem deedsOf_append {τ σ : Type} (before after : List (Moment τ σ)) :
    deedsOf (before ++ after) = deedsOf before ++ deedsOf after := List.map_append

section Times

variable {τ σ : Type}

/-- What a pacer compares the readings of the clock with. -/
def times (p : Pacer τ σ) : Option τ × τ × τ := (p.interval, p.nextDisplay, p.nextReport)

/-- An update sets when the next one is due and nothing else. -/
theorem updated_times (H : Host σ) (p : Pacer τ σ) (next : τ) :
    (p.updated H next).times = (p.interval, next, p.nextReport) := by
  unfold updated refresh handOver
  split <;> rfl

theorem printLine_times (H : Host σ) (p : Pacer τ σ) : (p.printLine H).times = p.times := by
  unfold printLine
  split <;> rfl

/-- A turn sets no time: only the reports, the updates and the waits do. -/
theorem cycle_times (H : Host σ) (p : Pacer τ σ) : (p.cycle H).1.times = p.times := by
  rw [cycle_eq]
  exact printLine_times H (p.holdKeys H)

end Times

variable {σ : Type} {H : Host σ} {p q : Pacer Rat σ} {now interval : Rat} {phase : Phase Rat}
  {readings : List Rat}

theorem le_iff (a b : Rat) : Time.le a b = true ↔ a ≤ b := decide_eq_true_iff

theorem lt_iff (a b : Rat) : Time.lt a b = true ↔ a < b := decide_eq_true_iff

/-- When the next update is due after one at the moment `now`. -/
def updateAfter (now : Rat) : Rat := now + 1 / 60

/-- When the next report is due after one at the moment `now`. -/
def reportAfter (now : Rat) : Rat := (if now < 0 then now.ceil else now.floor) + 1

/-- The next update is due a sixtieth of a second later. -/
theorem add_displayInterval (now : Rat) : Time.add now displayInterval = updateAfter now := by
  have hinterval : (displayInterval : Rat) = 1 / 60 := by decide +kernel
  rw [hinterval]
  rfl

/-- A report is made if it is due, and no reading is endless. -/
theorem reportIfDue_times (H : Host σ) (p : Pacer Rat σ) (now : Rat) :
    ∃ q, p.reportIfDue H now = (q, false) ∧
      deedsOf (p.reportMoments H now) =
        (if p.nextReport ≤ now then [.reported p.frames p.turns] else []) ∧
      q.times = (p.interval, p.nextDisplay,
        if p.nextReport ≤ now then reportAfter now else p.nextReport) := by
  unfold reportIfDue reportMoments
  simp only [le_iff]
  split
  · exact ⟨_, rfl, rfl, rfl⟩
  · exact ⟨_, rfl, rfl, rfl⟩

/-- An update is made if it is due. If the user wants to quit, no next one is. -/
theorem displayIfDue_times (H : Host σ) (p : Pacer Rat σ) (now : Rat) :
    ∃ q quit picture, p.displayIfDue H now = (q, quit) ∧
      deedsOf (p.updateMoments H now) =
        (if p.nextDisplay ≤ now then [.updated quit picture] else []) ∧
      (quit = true → p.nextDisplay ≤ now) ∧
      q.times = (p.interval,
        if p.nextDisplay ≤ now ∧ quit = false then updateAfter now else p.nextDisplay,
        p.nextReport) := by
  unfold displayIfDue updateMoments
  simp only [le_iff]
  by_cases hdue : p.nextDisplay ≤ now
  · simp only [if_pos hdue, add_displayInterval]
    cases hpump : (H.pump p.host).2 with
    | true =>
      refine ⟨_, true, p.picture?, rfl, rfl, fun _ => hdue, ?_⟩
      rw [if_neg (by simp)]
      exact updated_times H p p.nextDisplay
    | false =>
      refine ⟨_, false, p.picture?, rfl, rfl, fun _ => hdue, ?_⟩
      rw [if_pos ⟨hdue, rfl⟩]
      exact updated_times H p (updateAfter now)
  · simp only [if_neg hdue]
    refine ⟨p, false, none, rfl, rfl, ?_, ?_⟩
    · rintro ⟨⟩
    · rw [if_neg (fun h => hdue h.1)]
      rfl

/-- What a lap does, and what it makes of the times that a pacer goes by: it reports and
updates what is due, and unless the user wants to quit the machine takes a turn. -/
theorem turn_inv (H : Host σ) (p : Pacer Rat σ) (now : Rat) :
    ∃ quit picture keys word fault,
      (p.lapAt H now).deeds =
        (if p.nextReport ≤ now then [.reported p.frames p.turns] else []) ++
          ((if p.nextDisplay ≤ now then [.updated quit picture] else []) ++
            if quit then [] else [.turned keys word fault]) ∧
      (quit = true → p.nextDisplay ≤ now) ∧
      (p.turn H now).1.times = (p.interval,
        if p.nextDisplay ≤ now ∧ quit = false then updateAfter now else p.nextDisplay,
        if p.nextReport ≤ now then reportAfter now else p.nextReport) ∧
      ((p.turn H now).2 = none → quit = false) := by
  obtain ⟨p₁, hreport, hreported, htimes₁⟩ := reportIfDue_times H p now
  obtain ⟨p₂, quit, picture, hdisplay, hupdated, hquit, htimes₂⟩ := displayIfDue_times H p₁ now
  have hinterval : p₁.interval = p.interval := congrArg (·.1) htimes₁
  have hdue : p₁.nextDisplay = p.nextDisplay := congrArg (·.2.1) htimes₁
  have hnext : p₁.nextReport = if p.nextReport ≤ now then reportAfter now else p.nextReport :=
    congrArg (·.2.2) htimes₁
  -- A report leaves the time of the next update alone, so both are due by what `p` says.
  rw [hdue] at hupdated hquit
  rw [hinterval, hdue, hnext] at htimes₂
  simp only [lapAt, Lap.deeds, turnMoments, turn, hreport, hdisplay, deedsOf_append, hreported,
    hupdated]
  cases quit with
  | true =>
    -- The machine takes no turn.
    refine ⟨true, picture, .released, 0, none, rfl, hquit, htimes₂, ?_⟩
    rintro ⟨⟩
  | false =>
    have hcycle := (cycle_times H p₂).trans htimes₂
    refine ⟨false, picture, (H.keys p₂.host).2, p₂.machine.wordAt p₂.machine.pc, (p₂.cycle H).2,
      rfl, hquit, ?_, fun _ => rfl⟩
    rw [← hcycle]
    dsimp only
    rcases p₂.cycle H with ⟨p₃, _ | cause⟩ <;> rfl

/-- Each update asks once what the user did, and nothing else does. -/
theorem countP_isPump_asked (deed : Deed) :
    deed.asked.countP Asked.isPump = deed.goesOn.toNat + deed.quits.toNat := by
  cases deed with
  | reported frames turns => rfl
  | updated quit picture => cases quit <;> cases picture <;> rfl
  | turned keys word fault => cases fault <;> rfl

/-- Each report is given once, and nothing else is. -/
theorem countP_isReport_asked (deed : Deed) :
    deed.asked.countP Asked.isReport = deed.counts?.isSome.toNat + false.toNat := by
  cases deed with
  | reported frames turns => rfl
  | updated quit picture => cases picture <;> rfl
  | turned keys word fault => rfl

/-- In a lap the host is asked for what is due, and the machine takes a turn unless the user
wants to quit. -/
theorem countP_lapAt (H : Host σ) (p : Pacer Rat σ) (now : Rat) :
    (p.lapAt H now).asked.countP Asked.isPump = (decide (p.nextDisplay ≤ now)).toNat ∧
      (p.lapAt H now).asked.countP Asked.isReport = (decide (p.nextReport ≤ now)).toNat ∧
      (p.lapAt H now).deeds.countP Deed.completes + (p.lapAt H now).deeds.countP Deed.faults +
        (p.lapAt H now).deeds.countP Deed.quits = 1 := by
  obtain ⟨quit, picture, keys, word, fault, hdeeds, hquit, -⟩ := turn_inv H p now
  rw [Lap.asked, countP_flatMap_asked countP_isPump_asked,
    countP_flatMap_asked countP_isReport_asked, hdeeds]
  -- What is due decides which deeds there are, and the user may want to quit only if an update
  -- is due.
  cases quit with
  | true =>
    have hdisplay := hquit rfl
    by_cases hreport : p.nextReport ≤ now <;>
      simp only [hreport, hdisplay, if_true, if_false, decide_true, decide_false] <;>
      exact ⟨rfl, rfl, rfl⟩
  | false =>
    by_cases hreport : p.nextReport ≤ now <;> by_cases hdisplay : p.nextDisplay ≤ now <;>
      simp only [hreport, hdisplay, if_true, if_false, decide_true, decide_false] <;>
      cases fault <;> exact ⟨rfl, rfl, rfl⟩

/-! ## What is due again after a while -/

/-- Something is done in a lap exactly if it is due, and then it is due again later. -/
structure Scheduled (H : Host σ) (next : Pacer Rat σ → Rat) (does : Lap Rat σ → Bool)
    (after : Rat → Rat) : Prop where
  due (p : Pacer Rat σ) (now : Rat) : does (p.lapAt H now) = true ↔ next p ≤ now
  again {p q : Pacer Rat σ} {now : Rat} (h : p.turn H now = (q, none)) :
    next q = if next p ≤ now then after now else next p
  later (now : Rat) : now ≤ after now

/-- Updates are scheduled a sixtieth of a second apart. -/
theorem scheduled_updates (H : Host σ) : Scheduled H (·.nextDisplay) Lap.pumps updateAfter where
  due p now := by
    rw [Lap.pumps, List.any_eq_true, ← List.countP_pos_iff, (countP_lapAt H p now).1]
    by_cases h : p.nextDisplay ≤ now <;> simp [h]
  again {p q now} h := by
    obtain ⟨quit, -, -, -, -, -, -, htimes, hgoes⟩ := turn_inv H p now
    rw [h] at htimes hgoes
    have hnext : q.nextDisplay = _ := congrArg (·.2.1) htimes
    rw [hnext, hgoes rfl]
    simp
  later now := by
    unfold updateAfter
    linarith

/-- Reports are scheduled for the next whole second. -/
theorem scheduled_reports (H : Host σ) : Scheduled H (·.nextReport) Lap.reports reportAfter where
  due p now := by
    rw [Lap.reports, List.any_eq_true, ← List.countP_pos_iff, (countP_lapAt H p now).2.1]
    by_cases h : p.nextReport ≤ now <;> simp [h]
  again {p q now} h := by
    obtain ⟨quit, -, -, -, -, -, -, htimes, -⟩ := turn_inv H p now
    rw [h] at htimes
    exact congrArg (·.2.2) htimes
  later now := by
    unfold reportAfter
    split
    · have hceil : now ≤ now.ceil := Rat.le_ceil
      linarith
    · have hfloor : now - 1 < now.floor := Rat.lt_floor
      linarith

/-- What is scheduled is done in laps that are as far apart as the schedule says, and not
before it is due at first. -/
theorem Scheduled.laps {next : Pacer Rat σ → Rat} {does : Lap Rat σ → Bool} {after : Rat → Rat}
    (h : Scheduled H next does after) (p : Pacer Rat σ) (phase : Phase Rat)
    (readings : List Rat) :
    (∀ lap ∈ (p.laps H phase readings).filter does, next p ≤ lap.start) ∧
      ((p.laps H phase readings).filter does).Pairwise fun a b => after a.start ≤ b.start := by
  -- By induction on the readings. The first due time of the later laps is what carries over.
  induction readings generalizing p phase with
  | nil => exact ⟨List.forall_mem_nil _, List.Pairwise.nil⟩
  | cons now rest ih =>
    cases phase with
    | waiting deadline => exact ih p _
    | ready =>
      rcases hturn : p.turn H now with ⟨q, _ | ending⟩
      · -- The later laps are those of `q`, which has the next due time.
        obtain ⟨hfirst, hapart⟩ := ih q (q.phaseAfter now)
        have hnext := h.again hturn
        rw [laps_of_turn hturn]
        by_cases hdue : next p ≤ now
        · rw [if_pos hdue] at hnext
          rw [hnext] at hfirst
          rw [List.filter_cons_of_pos ((h.due p now).mpr hdue), List.forall_mem_cons]
          refine ⟨⟨hdue, fun lap hlap => ?_⟩, List.pairwise_cons.mpr ⟨hfirst, hapart⟩⟩
          exact hdue.trans ((h.later now).trans (hfirst lap hlap))
        · rw [if_neg hdue] at hnext
          rw [hnext] at hfirst
          rw [List.filter_cons_of_neg (mt (h.due p now).mp hdue)]
          exact ⟨hfirst, hapart⟩
      · -- There are no laps after the one in which a run ends.
        rw [laps_of_ending hturn]
        by_cases hdue : next p ≤ now
        · rw [List.filter_cons_of_pos ((h.due p now).mpr hdue)]
          exact ⟨List.forall_mem_singleton.mpr hdue, List.pairwise_singleton _ _⟩
        · rw [List.filter_cons_of_neg (mt (h.due p now).mp hdue)]
          exact ⟨List.forall_mem_nil _, List.Pairwise.nil⟩

/-! ## Waits -/

/-- A turn does not change how long turns last. -/
theorem turn_interval (H : Host σ) (p : Pacer Rat σ) (now : Rat) :
    (p.turn H now).1.interval = p.interval := by
  obtain ⟨quit, -, -, -, -, -, -, htimes, -⟩ := turn_inv H p now
  exact congrArg (·.1) htimes

/-- A wait puts off the laps that come after it, and each lap is followed by a wait that is as
long as a turn lasts. -/
theorem laps_apart (hclock : readings.Pairwise (· ≤ ·)) (hinterval : p.interval = some interval) :
    (∀ deadline, phase = .waiting deadline →
        ∀ lap ∈ p.laps H phase readings, deadline ≤ lap.start) ∧
      (p.laps H phase readings).Pairwise fun a b => a.start + interval ≤ b.start := by
  -- A wait and a lap each say something of the readings after them, so both are shown
  -- together.
  induction readings generalizing p phase with
  | nil => exact ⟨fun _ _ => List.forall_mem_nil _, List.Pairwise.nil⟩
  | cons now rest ih =>
    obtain ⟨hnow, hrest⟩ := List.pairwise_cons.mp hclock
    cases phase with
    | waiting deadline =>
      refine ⟨?_, (ih hrest hinterval).2⟩
      rintro _ ⟨⟩ lap hlap
      rw [laps_of_waiting] at hlap
      by_cases hearly : Time.lt now deadline = true
      · rw [if_pos hearly] at hlap
        exact (ih hrest hinterval).1 deadline rfl lap hlap
      · -- The wait is over, and every later reading is as late.
        have hover : deadline ≤ now := not_lt.mp (mt (lt_iff now deadline).mpr hearly)
        exact hover.trans (hnow _ (start_mem_of_mem_laps hlap))
    | ready =>
      refine ⟨?_, ?_⟩
      · rintro _ ⟨⟩
      rcases hturn : p.turn H now with ⟨q, _ | ending⟩
      · have hsame : q.interval = some interval := by
          rw [← hinterval, ← turn_interval H p now, hturn]
        -- The lap ends in a wait, which puts off all laps after it.
        have hphase : q.phaseAfter now = .waiting (now + interval) := by
          rw [phaseAfter, hsame]
          rfl
        obtain ⟨hwaits, hapart⟩ : _ ∧ (q.laps H (q.phaseAfter now) rest).Pairwise _ :=
          ih hrest hsame
        rw [laps_of_turn hturn]
        exact List.pairwise_cons.mpr ⟨hwaits _ hphase, hapart⟩
      · rw [laps_of_ending hturn]
        exact List.pairwise_singleton _ _

/-- In a row of laps that are apart the gaps add up. -/
theorem gaps_add_up {gap : Rat} {row : List (Lap Rat σ)}
    (h : row.Pairwise fun a b => a.start + gap ≤ b.start) {i j : Nat} (hij : i ≤ j)
    (hj : j < row.length) : ((j : Rat) - i) * gap ≤ row[j].start - row[i].start := by
  -- By induction on how many laps come between, with one gap for each.
  induction j, hij using Nat.le_induction with
  | base => simp
  | succ j hij ih =>
    have hgaps := ih (Nat.lt_of_succ_lt hj)
    have hgap := List.pairwise_iff_getElem.mp h j (j + 1) (Nat.lt_of_succ_lt hj) hj j.lt_succ_self
    rw [Nat.cast_succ]
    linarith

/-! ## All runs -/

/-- A report that is not due before another says so is made in a later second. -/
theorem floor_lt_of_reportAfter_le {a b : Rat} (ha : 0 ≤ a) (h : reportAfter a ≤ b) :
    a.floor < b.floor := by
  rw [reportAfter, if_neg (not_lt.mpr ha)] at h
  refine Int.lt_iff_add_one_le.mpr (Rat.le_floor_iff.mpr ?_)
  rw [Rat.intCast_add]
  exact h

/-- A run is never faster than asked, on any host, whichever pacer it starts with, at exact
readings of a clock that never goes back and starts at zero or later:

* the laps of the run are all that it does, and all that the host is asked for;
* if a turn is to last for an interval, so many laps later it is so many intervals later;
* the host is asked what the user did at most sixty times in a second: so many times later it
  is as many parts of a second later;
* reports come in seconds that are strictly later, so there is at most one in each second;
* in each lap there are at most one question what the user did and at most one report, and
  exactly one turn of the machine, which completes or faults, unless the user wants to
  quit. -/
theorem never_faster_than_asked (H : Host σ) (p : Pacer Rat (σ × List Asked))
    (readings : List Rat) (hclock : readings.Pairwise (· ≤ ·)) (hzero : ∀ now ∈ readings, 0 ≤ now) :
    let laps := p.laps H.recording .ready readings
    let updates := laps.filter Lap.pumps
    let outcome := p.run H.recording readings
    (Story H.recording p (laps.flatMap Lap.moments) outcome.pacer ∧
        outcome.pacer.host.2 = p.host.2 ++ laps.flatMap Lap.asked) ∧
      (∀ interval, p.interval = some interval → ∀ i j, (hij : i ≤ j) → (hj : j < laps.length) →
        ((j : Rat) - i) * interval ≤ laps[j].start - laps[i].start) ∧
      (∀ i j, (hij : i ≤ j) → (hj : j < updates.length) →
        ((j : Rat) - i) * (1 / 60) ≤ updates[j].start - updates[i].start) ∧
      ((laps.filter Lap.reports).Pairwise fun a b => a.start.floor < b.start.floor) ∧
      ∀ lap ∈ laps, lap.asked.countP Asked.isPump ≤ 1 ∧ lap.asked.countP Asked.isReport ≤ 1 ∧
        lap.deeds.countP Deed.completes + lap.deeds.countP Deed.faults +
          lap.deeds.countP Deed.quits = 1 := by
  intro laps updates outcome
  have hstory : Story H.recording p (laps.flatMap Lap.moments) outcome.pacer := by
    rw [flatMap_laps]
    exact (story_runFrom H.recording p .ready readings).1
  refine ⟨⟨hstory, ?_⟩, ?_, ?_, ?_, ?_⟩
  · rw [hstory.record, deedsOf, List.map_flatMap, List.flatMap_assoc]
    rfl
  · intro interval hinterval i j hij hj
    exact gaps_add_up (laps_apart hclock hinterval).2 hij hj
  · intro i j hij hj
    exact gaps_add_up ((scheduled_updates H.recording).laps p .ready readings).2 hij hj
  · -- The next report is due in the next second, so the two are not in the same one.
    have hapart := ((scheduled_reports H.recording).laps p .ready readings).2
    refine hapart.imp_of_mem fun {a b} ha _ h => ?_
    exact floor_lt_of_reportAfter_le
      (hzero _ (start_mem_of_mem_laps (List.mem_filter.mp ha).1)) h
  · intro lap hlap
    -- Some pacer on the way took the turn, and what one turn does is known.
    obtain ⟨q, hq⟩ := exists_of_mem_laps hlap
    obtain ⟨hpump, hreport, hturn⟩ := countP_lapAt H.recording q lap.start
    rw [← hq] at hpump hreport hturn
    rw [hpump, hreport]
    exact ⟨Bool.toNat_le _, Bool.toNat_le _, hturn⟩

/-- A host on which nothing happens. -/
def quietHost : Host Unit where
  pump s := (s, false)
  keys s := (s, .released)
  report s _ := s
  draw s _ := s
  refresh s := s
  beep s := s
  print s _ := s

/-- A pacer at five hundred turns in a second, with a machine that goes around in a jump. -/
def goingAround : Pacer Rat (Unit × List Asked) where
  machine := { Machine.fresh (.ofList []) with memory := ⟨#[0x10, 0x00]⟩, pc := 0 }
  host := ((), [])
  live := false
  interval := some (1 / 500)
  nextDisplay := 0
  nextReport := 0
  frames := 0
  turns := 0

/-- The readings in between end the waits of the first two laps. -/
theorem goingAround_keeps_apart :
    let readings : List Rat := [0, 1 / 1000, 1 / 500, 1 / 60, 1 / 50, 1 / 20]
    let laps := goingAround.laps quietHost.recording .ready readings
    readings.Pairwise (· ≤ ·) ∧ (∀ now ∈ readings, 0 ≤ now) ∧
      laps.map Lap.start = [0, 1 / 60, 1 / 20] ∧ laps.map Lap.pumps = [true, true, true] ∧
      (∀ i j, (hij : i ≤ j) → (hj : j < laps.length) →
        ((j : Rat) - i) * (1 / 500) ≤ laps[j].start - laps[i].start) ∧
      ∀ lap ∈ laps, lap.asked.countP Asked.isPump ≤ 1 := by
  intro readings laps
  have hclock : readings.Pairwise (· ≤ ·) := by decide +kernel
  have hzero : ∀ now ∈ readings, 0 ≤ now := by decide +kernel
  obtain ⟨-, hturns, -, -, hlaps⟩ :=
    never_faster_than_asked quietHost goingAround readings hclock hzero
  refine ⟨hclock, hzero, by decide +kernel, by decide +kernel, hturns _ rfl, ?_⟩
  intro lap hlap
  exact (hlaps lap hlap).1

end Pacer

end Chip8
