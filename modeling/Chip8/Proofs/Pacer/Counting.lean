import Chip8.Proofs.Pacer.Chronicle
import Chip8.Proofs.Text.Separation
import Mathlib.Algebra.GroupWithZero.Nat
import Mathlib.Data.List.Induction

/-!
# Chip8.Proofs.Pacer.Counting — every turn and every update is reported once

A run counts the turns that complete and the updates of what is shown. A report puts both
counts in a title and starts them again. All this happens in different places, to which
the clock leads in any order, so a run is looked at deed by deed:

* `countsTitle_injective` — a title tells which counts it shows.
* `Accounted` — what was reported and what is not reported yet add up to the turns that
  completed and the updates that were made. `Accounted.does` is the step lemma,
  `Accounted.story` that about runs.
* `counts_are_reported_once` — so it is with the titles that a host is given, at each
  moment of a run and at its end.

The update after which the user wants to quit is not counted, and neither is a turn that
faults. Both end a run, so the record of a whole run holds one more update or one more
turn than was counted, or neither (`Closes.countP`).
-/

namespace Chip8

/-! ## Titles -/

/-- The title that shows how many pictures and how many turns there were. -/
def countsTitle (counts : Nat × Nat) : Text := (Report.ofCounts counts.1 counts.2).title

/-- The title that a host is given. -/
def Asked.title? : Asked → Option Text
  | .report r => some r.title
  | _ => none

/-- The titles that a host was given. -/
def titles (record : List Asked) : List Text := record.filterMap Asked.title?

/-- A count is written in its digits. -/
theorem ofString_count (n : Nat) :
    Text.ofString (toString (n : Int)) = (Nat.toDigits 10 n).map .char := by
  have hdigits : toString (n : Int) = n.repr := rfl
  rw [Text.ofString, hdigits, Nat.toList_repr]

/-- A title is the name and the two counts, each with a blank behind it. -/
theorem countsTitle_eq (counts : Nat × Nat) :
    countsTitle counts =
      ((Banner.name ++ " - ").toList ++ (Nat.toDigits 10 counts.1 ++ ' ' ::
        ("FPS, ".toList ++ (Nat.toDigits 10 counts.2 ++ ' ' :: "OPS".toList)))).map .char := by
  rw [countsTitle, Report.ofCounts, Report.title, Value.written_whole, Value.written_whole,
    ofString_count, ofString_count]
  simp [Text.ofString]

/-- The digits of a number reach up to the blank behind them, and tell the number. -/
theorem toDigits_blank_inj {m n : Nat} {rest rest' : List Char}
    (h : Nat.toDigits 10 m ++ ' ' :: rest = Nat.toDigits 10 n ++ ' ' :: rest') :
    m = n ∧ rest = rest' := by
  have hblank (k : Nat) : ' ' ∉ Nat.toDigits 10 k := by
    intro hmem
    exact absurd (Nat.isDigit_of_mem_toDigits (by decide) (by decide) hmem) (by decide)
  obtain ⟨hdigits, hrest⟩ := Text.append_mark_inj (hblank m) (hblank n) h
  refine ⟨?_, hrest⟩
  calc
    m = Nat.ofDigitChars 10 (Nat.toDigits 10 m) 0 := Nat.ofDigitChars_ten_toDigits.symm
    _ = Nat.ofDigitChars 10 (Nat.toDigits 10 n) 0 := by rw [hdigits]
    _ = n := Nat.ofDigitChars_ten_toDigits

/-- A title tells which counts it shows. -/
theorem countsTitle_injective {counts counts' : Nat × Nat}
    (h : countsTitle counts = countsTitle counts') : counts = counts' := by
  rw [countsTitle_eq, countsTitle_eq] at h
  -- Each code point of a title is a character, so the characters are the same too.
  have hchars := (List.map_inj_right fun _ _ h => CodePoint.char.inj h).mp h
  obtain ⟨hframes, hrest⟩ := toDigits_blank_inj (List.append_cancel_left hchars)
  obtain ⟨hturns, -⟩ := toDigits_blank_inj (List.append_cancel_left hrest)
  exact Prod.ext hframes hturns

/-! ## What deeds count for -/

namespace Deed

/-- The counts that a deed reports. -/
def counts? : Deed → Option (Nat × Nat)
  | .reported frames turns => some (frames, turns)
  | _ => none

/-- Whether a deed is a turn that completes. -/
def completes : Deed → Bool
  | .turned _ _ none => true
  | _ => false

/-- Whether a deed is a turn that faults. -/
def faults : Deed → Bool
  | .turned _ _ (some _) => true
  | _ => false

/-- Whether a deed is an update after which the run goes on. -/
def goesOn : Deed → Bool
  | .updated false _ => true
  | _ => false

/-- Whether a deed is an update after which the user wants to quit. -/
def quits : Deed → Bool
  | .updated true _ => true
  | _ => false

end Deed

/-- The counts that deeds report, from first to last. -/
def reports (deeds : List Deed) : List (Nat × Nat) := deeds.filterMap Deed.counts?

/-- Whether a host is asked for keys. -/
def Asked.isKeys : Asked → Bool
  | .keys _ => true
  | _ => false

/-- Whether a host is asked to bring what is shown up to date. -/
def Asked.isRefresh : Asked → Bool
  | .refresh => true
  | _ => false

variable {deed : Deed} {deeds : List Deed}

/-- Only a report asks for a title, and for that of its counts. -/
theorem titles_asked (deed : Deed) : titles deed.asked = deed.counts?.toList.map countsTitle := by
  cases deed with
  | reported frames turns => rfl
  | updated quit picture => cases picture <;> rfl
  | turned keys word fault => rfl

/-- The titles in the record of deeds show the counts that the deeds report. -/
theorem titles_flatMap_asked (deeds : List Deed) :
    titles (deeds.flatMap Deed.asked) = (reports deeds).map countsTitle := by
  calc titles (deeds.flatMap Deed.asked)
    _ = deeds.flatMap (fun deed => titles deed.asked) := List.filterMap_flatMap
    _ = deeds.flatMap (fun deed => deed.counts?.toList.map countsTitle) := by
      simp only [titles_asked]
    _ = (reports deeds).map countsTitle := by
      rw [reports, List.filterMap_eq_flatMap_toList, List.map_flatMap]

/-- Each turn asks for keys once. -/
theorem countP_isKeys_asked (deed : Deed) :
    deed.asked.countP Asked.isKeys = deed.completes.toNat + deed.faults.toNat := by
  cases deed with
  | reported frames turns => rfl
  | updated quit picture => cases quit <;> cases picture <;> rfl
  | turned keys word fault => cases fault <;> rfl

/-- Each update brings what is shown up to date once. -/
theorem countP_isRefresh_asked (deed : Deed) :
    deed.asked.countP Asked.isRefresh = deed.goesOn.toNat + deed.quits.toNat := by
  cases deed with
  | reported frames turns => rfl
  | updated quit picture => cases quit <;> cases picture <;> rfl
  | turned keys word fault => cases fault <;> rfl

theorem countP_deeds_concat (one : Deed → Bool) (deeds : List Deed) (deed : Deed) :
    (deeds ++ [deed]).countP one = deeds.countP one + (one deed).toNat := by
  rw [List.countP_append, List.countP_singleton]
  cases one deed <;> rfl

/-- What each deed asks for once is asked for as often as there are such deeds. -/
theorem countP_flatMap_asked {wanted : Asked → Bool} {one other : Deed → Bool}
    (h : ∀ deed : Deed, deed.asked.countP wanted = (one deed).toNat + (other deed).toNat)
    (deeds : List Deed) :
    (deeds.flatMap Deed.asked).countP wanted = deeds.countP one + deeds.countP other := by
  -- By induction on the deeds from the last, as records grow at their end.
  induction deeds using List.reverseRecOn with
  | nil => rfl
  | append_singleton deeds deed ih =>
    rw [List.flatMap_append, List.flatMap_singleton, List.countP_append, ih, h,
      countP_deeds_concat, countP_deeds_concat]
    omega

namespace Pacer

variable {τ σ : Type} {H : Host σ} {p q : Pacer τ σ} {moments : List (Moment τ σ)}

/-! ## Counting -/

/-- An update itself counts nothing. -/
theorem updated_counts (H : Host σ) (p : Pacer τ σ) (next : τ) :
    (p.updated H next).frames = p.frames ∧ (p.updated H next).turns = p.turns := by
  unfold updated refresh handOver
  split <;> exact ⟨rfl, rfl⟩

theorem printLine_counts (H : Host σ) (p : Pacer τ σ) :
    (p.printLine H).frames = p.frames ∧ (p.printLine H).turns = p.turns := by
  unfold printLine
  split <;> exact ⟨rfl, rfl⟩

/-- A turn is counted exactly if it completes. -/
theorem cycle_counts (H : Host σ) (p : Pacer τ σ) :
    (p.cycle H).1.frames = p.frames ∧
      (p.cycle H).1.turns = p.turns + (p.cycle H).2.isNone.toNat := by
  -- The step itself counts nothing.
  obtain ⟨hframes, hturns⟩ := printLine_counts H (p.holdKeys H)
  rw [cycle_eq]
  exact ⟨hframes, congrArg (· + _) hturns⟩

/-- What was reported and what is not reported yet add up to what deeds count for. -/
structure Accounted (p : Pacer τ σ) (deeds : List Deed) : Prop where
  turns : ((reports deeds).map Prod.snd).sum + p.turns = deeds.countP Deed.completes
  frames : ((reports deeds).map Prod.fst).sum + p.frames = deeds.countP Deed.goesOn

/-- A deed adds to the counts what it counts for, and takes from them what it reports. -/
theorem Does.counts (h : Does H p deed q) :
    ((reports [deed]).map Prod.snd).sum + q.turns = p.turns + deed.completes.toNat ∧
      ((reports [deed]).map Prod.fst).sum + q.frames = p.frames + deed.goesOn.toNat := by
  cases h with
  | report next => exact ⟨rfl, rfl⟩
  | update next hpump =>
    obtain ⟨hframes, hturns⟩ := updated_counts H p next
    refine ⟨?_, ?_⟩
    · show 0 + (p.updated H next).turns = p.turns + 0
      rw [hturns, Nat.zero_add, Nat.add_zero]
    · show 0 + ((p.updated H next).frames + 1) = p.frames + 1
      rw [hframes, Nat.zero_add]
  | quit hpump =>
    obtain ⟨hframes, hturns⟩ := updated_counts H p p.nextDisplay
    exact ⟨(Nat.zero_add _).trans hturns, (Nat.zero_add _).trans hframes⟩
  | turn =>
    obtain ⟨hframes, hturns⟩ := cycle_counts H p
    refine ⟨?_, (Nat.zero_add _).trans hframes⟩
    rw [hturns]
    cases (p.cycle H).2 <;> exact Nat.zero_add _

/-- One deed keeps the account. -/
theorem Accounted.does (h : Accounted p deeds) (hdoes : Does H p deed q) :
    Accounted q (deeds ++ [deed]) := by
  obtain ⟨hturns, hframes⟩ := hdoes.counts
  have hreports : reports (deeds ++ [deed]) = reports deeds ++ reports [deed] :=
    List.filterMap_append
  refine ⟨?_, ?_⟩
  · rw [hreports, List.map_append, List.sum_append, countP_deeds_concat, ← h.turns]
    omega
  · rw [hreports, List.map_append, List.sum_append, countP_deeds_concat, ← h.frames]
    omega

/-- The counts stay accounted for while a run goes on, and with its last deed. -/
theorem Accounted.story (h : Accounted p deeds) (hstory : Story H p moments q) :
    Accounted q (deeds ++ deedsOf moments) := by
  -- The last deed of a run keeps the account as well, so deeds of every kind will do.
  refine Story.carry (fun _ => True) ?_ deeds h hstory fun _ _ => trivial
  intro p q deeds deed h hdoes _
  exact h.does hdoes

/-! ## How a run ends -/

/-- Whether the user ends a run. -/
def Ending.isQuit : Ending → Bool
  | .quit => true
  | _ => false

/-- Whether a fault ends a run. -/
def Ending.isFault : Ending → Bool
  | .fault _ => true
  | _ => false

/-- A run is over with an update after which the user wants to quit, and with a fault. -/
theorem isLast_eq (deed : Deed) : deed.isLast = (deed.quits || deed.faults) := by
  cases deed with
  | reported frames turns => rfl
  | updated quit picture => cases quit <;> rfl
  | turned keys word fault => cases fault <;> rfl

/-- A run that goes on holds no deed that ends it. -/
theorem Ongoing.countP (h : Ongoing moments) :
    (deedsOf moments).countP Deed.quits = 0 ∧ (deedsOf moments).countP Deed.faults = 0 := by
  have hneither : ∀ deed ∈ deedsOf moments, deed.quits = false ∧ deed.faults = false := by
    intro deed hdeed
    obtain ⟨moment, hmem, rfl⟩ := List.mem_map.mp hdeed
    have hlast := h moment hmem
    rw [isLast_eq, Bool.or_eq_false_iff] at hlast
    exact hlast
  refine ⟨List.countP_eq_zero.mpr ?_, List.countP_eq_zero.mpr ?_⟩
  · intro deed hdeed
    exact Bool.eq_false_iff.mp (hneither deed hdeed).1
  · intro deed hdeed
    exact Bool.eq_false_iff.mp (hneither deed hdeed).2

/-- Only the last deed of a run may end it. -/
theorem Story.countP_concat {before : List (Moment τ σ)} {moment : Moment τ σ}
    (h : Story H p (before ++ [moment]) q) :
    (deedsOf (before ++ [moment])).countP Deed.quits = moment.deed.quits.toNat ∧
      (deedsOf (before ++ [moment])).countP Deed.faults = moment.deed.faults.toNat := by
  obtain ⟨-, -, hongoing, -⟩ := h.split
  obtain ⟨hquits, hfaults⟩ := hongoing.countP
  -- The deeds before the last go on.
  have hdeeds : deedsOf (before ++ [moment]) = deedsOf before ++ [moment.deed] := List.map_append
  rw [hdeeds, countP_deeds_concat, countP_deeds_concat, hquits, hfaults]
  exact ⟨Nat.zero_add _, Nat.zero_add _⟩

/-- How a run ends says how many of its deeds end it, and in which way. -/
theorem Closes.countP {ending : Ending} (h : Closes moments q ending)
    (hstory : Story H p moments q) :
    (deedsOf moments).countP Deed.quits = ending.isQuit.toNat ∧
      (deedsOf moments).countP Deed.faults = ending.isFault.toNat := by
  cases ending with
  | quit =>
    obtain ⟨before, picture, rfl⟩ := h
    exact hstory.countP_concat
  | fault cause =>
    obtain ⟨before, keys, word, rfl⟩ := h
    exact hstory.countP_concat
  | endlessTime | clockStopped => exact Ongoing.countP h

/-! ## All runs -/

/-- The record of a host holds what deeds asked for, and its titles show all that they
count for but what the pacer has not reported yet. -/
structure Reported (p : Pacer τ (σ × List Asked)) (deeds : List Deed) : Prop
    extends Accounted p deeds where
  record : p.host.2 = deeds.flatMap Deed.asked
  shown : titles p.host.2 = (reports deeds).map countsTitle

/-- Where a story begins with no counts and an empty record, what is reported is accounted for.
-/
theorem Reported.of_story {p q : Pacer τ (σ × List Asked)}
    {moments : List (Moment τ (σ × List Asked))} (hrecord : p.host.2 = [])
    (hframes : p.frames = 0) (hturns : p.turns = 0) (hstory : Story H.recording p moments q) :
    Reported q (deedsOf moments) where
  toAccounted := by
    have hstart : Accounted p [] := ⟨by rw [hturns]; rfl, by rw [hframes]; rfl⟩
    exact hstart.story hstory
  record := by rw [hstory.record, hrecord, List.nil_append]
  shown := by rw [hstory.record, hrecord, List.nil_append, titles_flatMap_asked]

variable [Time τ]

/-- A run whose counts start at zero reports every turn and every update once, on any
host, at any rate and at any readings of the clock:

* a title tells which counts it shows;
* at each moment of the run the counts in the titles that the host was given, together
  with those that the pacer holds, add up to the turns that completed and the updates that
  were made, but for one after which the user wants to quit;
* so it is at the end. There the host was asked for keys once more if a fault ended the
  run, and for a refresh once more if the user did.

The readings may stop anywhere, so the end of a run is any point between two turns too. -/
theorem counts_are_reported_once (H : Host σ) (p : Pacer τ (σ × List Asked)) (state : σ)
    (readings : List τ) :
    let start := { p with host := (state, []), frames := 0, turns := 0 }
    let story := start.moments H.recording .ready readings
    let outcome := start.run H.recording readings
    let counts := reports (deedsOf story)
    (∀ shown shown', countsTitle shown = countsTitle shown' → shown = shown') ∧
      Story H.recording start story outcome.pacer ∧
      (∀ before moment after, story = before ++ moment :: after →
        Reported moment.pacer (deedsOf (before ++ [moment]))) ∧
      Reported outcome.pacer (deedsOf story) ∧
      outcome.pacer.host.2.countP Asked.isKeys =
        (counts.map Prod.snd).sum + outcome.pacer.turns + outcome.ending.isFault.toNat ∧
      outcome.pacer.host.2.countP Asked.isRefresh =
        (counts.map Prod.fst).sum + outcome.pacer.frames + outcome.ending.isQuit.toNat := by
  intro start story outcome counts
  obtain ⟨hstory, hcloses⟩ : Story H.recording start story outcome.pacer ∧
      Closes story outcome.pacer outcome.ending := story_closes H.recording start .ready readings
  have hreported : Reported outcome.pacer (deedsOf story) := .of_story rfl rfl rfl hstory
  obtain ⟨hquits, hfaults⟩ := hcloses.countP hstory
  refine ⟨fun _ _ => countsTitle_injective, hstory, ?_, hreported, ?_, ?_⟩
  · -- Each moment of a run is the end of a shorter story.
    intro before moment after heq
    rw [heq] at hstory
    exact .of_story rfl rfl rfl hstory.upTo
  · rw [hreported.record, countP_flatMap_asked countP_isKeys_asked, hfaults, hreported.turns]
  · rw [hreported.record, countP_flatMap_asked countP_isRefresh_asked, hquits, hreported.frames]

end Pacer

end Chip8
