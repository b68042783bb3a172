import Chip8.Proofs.History
import Chip8.Proofs.Machine.Effect
import Chip8.Proofs.Pacer.Chronicle

/-!
# Chip8.Proofs.Pacer.Frames — no picture is lost

Only two instructions change the picture, and both mark it as changed. An update hands
over what is marked, and takes the mark off. So at every moment of a run:

* the picture is marked exactly if one was drawn and none was handed over since
  (`PictureDue`);
* a picture without a mark is the last one that was handed over (`lastDrawn`), pixel by
  pixel (`Depicts`).

`Faithful` says both of a pacer and of the deeds that led to it. `Faithful.does` is the
step lemma, `Faithful.story` that about runs, and `no_picture_is_lost` puts them
together for a new machine. Only a turn that faults may draw without a mark, and then
the run is over.
-/

namespace Chip8

/-! ## What was drawn and what was shown -/

/-- Whether an instruction changes the picture. -/
def Instruction.Draws : Instruction → Prop
  | .clear | .draw _ _ _ => True
  | _ => False

/-- Whether a deed is a completed turn that changes the picture. -/
def Deed.Draws : Deed → Prop
  | .turned _ word none => ∃ i : Instruction, i.EncodedBy word ∧ i.Draws
  | _ => False

/-- The picture that a deed hands over. -/
def Deed.picture? : Deed → Option (Array UInt8)
  | .updated _ picture => picture
  | _ => none

/-- The fault of a turn. -/
def Deed.fault? : Deed → Option Fault
  | .turned _ _ fault => fault
  | _ => none

/-- A picture was drawn, and none was handed over since. -/
def PictureDue (deeds : List Deed) : Prop :=
  ∃ before deed after, deeds = before ++ deed :: after ∧ deed.Draws ∧
    ∀ later ∈ after, later.picture? = none

/-- The picture that a host was asked to draw. -/
def Asked.picture? : Asked → Option (Array UInt8)
  | .draw picture => some picture
  | _ => none

/-- The picture that a host was last asked to draw, an unlit one if there was none. -/
def lastDrawn (record : List Asked) : Array UInt8 :=
  (record.filterMap Asked.picture?).getLast?.getD (Array.replicate 2048 0)

/-- A picture in bytes shows a display: row after row it has one byte for each pixel, which
is one if the pixel is lit, and else zero. -/
structure Depicts (picture : Array UInt8) (d : Display) : Prop where
  size : picture.size = 2048
  pixel : ∀ x y : Int, 0 ≤ x → x < 64 → 0 ≤ y → y < 32 →
    picture[(y * 64 + x).toNat]? = some (if d.lit x y then 1 else 0)

/-- The frame of a display shows it. -/
theorem depicts_frame {d : Display} (hd : d.Standard) : Depicts d.frame d where
  size := d.size_frame.trans hd.area
  pixel := by
    intro x y hleft hright htop hbottom
    have hwidth := hd.width
    have hheight := hd.height
    have hplace : d.location x y = (y * 64 + x).toNat := by
      rw [hd.whole.location_of_bounds hleft (by omega) htop (by omega), hwidth]
    rw [← hplace]
    exact hd.whole.frame_location x y

variable {deeds : List Deed} {deed : Deed} {record : List Asked}

/-- A picture is due after a deed that draws, and after one that hands nothing over if
it was due before. -/
theorem pictureDue_concat :
    PictureDue (deeds ++ [deed]) ↔ deed.Draws ∨ (PictureDue deeds ∧ deed.picture? = none) :=
  History.hasLast_concat.trans (or_congr Iff.rfl and_comm)

theorem not_pictureDue_nil : ¬ PictureDue [] := History.not_hasLast_nil

theorem lastDrawn_append (record later : List Asked) :
    lastDrawn (record ++ later) =
      (later.filterMap Asked.picture?).getLast?.getD (lastDrawn record) := by
  rw [lastDrawn, List.filterMap_append, List.getLast?_append, Option.getD_or, lastDrawn]

/-- What a deed asks for tells of the picture that it hands over. -/
theorem lastDrawn_asked (record : List Asked) (deed : Deed) :
    lastDrawn (record ++ deed.asked) = deed.picture?.getD (lastDrawn record) := by
  rw [lastDrawn_append]
  cases deed with
  | reported frames turns => rfl
  | updated quit picture => cases picture <;> rfl
  | turned keys word fault => rfl

/-! ## Steps of the machine -/

namespace Machine

/-- A completed step marks the picture if it changes it, and else leaves it as it is. -/
theorem Bounded.display_of_completed {m : Machine} (hm : m.Bounded) (h : m.step.fault = none) :
    ((∃ i : Instruction, i.EncodedBy (m.wordAt m.pc) ∧ i.Draws) ∧
        m.step.machine.display.changed = true) ∨
      ((¬ ∃ i : Instruction, i.EncodedBy (m.wordAt m.pc) ∧ i.Draws) ∧
        m.step.machine.display = m.display) := by
  obtain ⟨i, -, hi, -, hstep⟩ := hm.step_eq_of_completed h
  have hdisplay : m.step.machine.display = m.displayAfter i := by
    rw [hstep, stepped_display]
  rw [Instruction.exists_encodedBy_iff hi, hdisplay]
  -- Clearing and drawing are the two instructions that draw.
  cases i with
  | clear => exact .inl ⟨trivial, rfl⟩
  | draw x y height => exact .inl ⟨trivial, rfl⟩
  | _ => exact .inr ⟨id, rfl⟩

/-- A program that is accepted does not touch the picture. -/
theorem load_display {m m' : Machine} {program : Array UInt8} (h : m.load program = .ok m') :
    m'.display = m.display := by
  unfold load at h
  split at h
  · cases h
  · split at h
    · cases h
    · cases h
      rfl

/-- Loading leaves the picture alone. -/
theorem performAll_load_display (m : Machine) (programs : List (Array UInt8)) :
    (m.performAll (programs.map .load)).display = m.display := by
  induction programs generalizing m with
  | nil => rfl
  | cons program rest ih =>
    have hload : (m.perform (.load program)).1.display = m.display := by
      simp only [perform]
      cases hload : m.load program with
      | error e => rfl
      | ok m' => exact load_display hload
    exact (ih _).trans hload

end Machine

/-! ## Runs -/

namespace Pacer

variable {τ σ : Type} {H : Host σ} {p q : Pacer τ (σ × List Asked)}

/-- What is shown keeps up with the picture: it is marked exactly if one is due, and
without a mark it is the one that was drawn last. -/
structure Faithful (p : Pacer τ (σ × List Asked)) (deeds : List Deed) : Prop where
  bounded : p.machine.Bounded
  due : p.machine.display.changed = true ↔ PictureDue deeds
  shown : p.machine.display.changed = false → p.machine.display.frame = lastDrawn p.host.2

/-- Without a mark, the picture that was drawn last shows the display pixel by pixel. -/
theorem Faithful.depicts (h : Faithful p deeds) (hunmarked : p.machine.display.changed = false) :
    p.machine.display.frame = lastDrawn p.host.2 ∧
      Depicts (lastDrawn p.host.2) p.machine.display := by
  have hshown := h.shown hunmarked
  exact ⟨hshown, hshown ▸ depicts_frame h.bounded.display⟩

/-- A deed that neither draws nor hands over keeps what is shown as it is. -/
theorem Faithful.quiet (h : Faithful p deeds) (hbounded : q.machine.Bounded)
    (hdisplay : q.machine.display = p.machine.display) (hdraws : ¬ deed.Draws)
    (hpicture : deed.picture? = none) (hrecord : q.host.2 = p.host.2 ++ deed.asked) :
    Faithful q (deeds ++ [deed]) where
  bounded := hbounded
  due := by
    rw [hdisplay, h.due, pictureDue_concat]
    constructor
    · intro hdue
      exact .inr ⟨hdue, hpicture⟩
    · rintro (hdrawn | ⟨hdue, -⟩)
      · exact absurd hdrawn hdraws
      · exact hdue
  shown := by
    rw [hdisplay, hrecord, lastDrawn_asked, hpicture]
    exact h.shown

/-- An update hands the picture over if it is marked, and takes the mark off. -/
theorem Faithful.update (h : Faithful p deeds) {quit : Bool}
    (hmachine : q.machine =
      if p.machine.display.changed then p.machine.settleDisplay else p.machine)
    (hrecord : q.host.2 = p.host.2 ++ (Deed.updated quit p.picture?).asked) :
    Faithful q (deeds ++ [.updated quit p.picture?]) := by
  cases hchanged : p.machine.display.changed with
  -- Without a mark no picture is handed over.
  | false =>
    rw [if_neg (Bool.eq_false_iff.mp hchanged)] at hmachine
    refine h.quiet (hmachine ▸ h.bounded) (congrArg (·.display) hmachine) id ?_ hrecord
    show p.picture? = none
    rw [picture?, if_neg (Bool.eq_false_iff.mp hchanged)]
  | true =>
    -- The picture is handed over, so the one that was drawn last is this one.
    rw [if_pos hchanged] at hmachine
    have hpicture : p.picture? = some p.machine.display.frame := by
      rw [picture?, if_pos hchanged]
    refine ⟨?_, ?_, ?_⟩
    · rw [hmachine]
      exact h.bounded.setDisplay h.bounded.display.settle
    · rw [hmachine, pictureDue_concat, hpicture]
      constructor
      · rintro ⟨⟩
      · rintro (hdraws | ⟨-, ⟨⟩⟩)
        exact False.elim hdraws
    · intro _
      rw [hmachine, hrecord, lastDrawn_asked, hpicture]
      rfl

/-- A completed turn keeps what is shown up with the picture. -/
theorem Faithful.turn (h : Faithful p deeds) {keys : Keypad}
    (hmachine : q.machine = (p.machine.hold keys).step.machine)
    (hdone : (p.machine.hold keys).step.fault = none)
    (hrecord : q.host.2 = p.host.2 ++ [.keys keys]) :
    Faithful q (deeds ++ [.turned keys (p.machine.wordAt p.machine.pc) none]) := by
  have hheld : (p.machine.hold keys).Bounded := { h.bounded with }
  have hbounded : q.machine.Bounded := hmachine ▸ hheld.step
  -- A word that draws leaves a mark, and any other leaves the picture alone.
  rcases hheld.display_of_completed hdone with ⟨hdraws, hchanged⟩ | ⟨hdraws, hdisplay⟩
  · rw [← hmachine] at hchanged
    refine ⟨hbounded, ?_, ?_⟩
    · rw [hchanged, pictureDue_concat]
      exact ⟨fun _ => .inl hdraws, fun _ => rfl⟩
    · rw [hchanged]
      rintro ⟨⟩
  · exact h.quiet hbounded ((congrArg (·.display) hmachine).trans hdisplay) hdraws rfl hrecord

/-- Every deed but a fault keeps what is shown up with the picture. -/
theorem Faithful.does (h : Faithful p deeds) (hdoes : Does H.recording p deed q)
    (hdone : deed.fault? = none) : Faithful q (deeds ++ [deed]) := by
  have hrecord := hdoes.record
  cases hdoes with
  | report next => exact h.quiet h.bounded rfl id rfl hrecord
  | update next hpump => exact h.update (updated_machine H.recording p next) hrecord
  | quit hpump => exact h.update (updated_machine H.recording p p.nextDisplay) hrecord
  | turn =>
    have hfault : (p.cycle H.recording).2 = none := hdone
    obtain ⟨hmachine, hstep⟩ := cycle_step H.recording p
    rw [hfault] at hstep ⊢
    exact h.turn hmachine hstep.symm hrecord

/-- A deed after which a run goes on is not a fault. -/
theorem fault?_of_ongoing (h : deed.isLast = false) : deed.fault? = none := by
  cases deed with
  | reported | updated => rfl
  | turned keys word fault => exact Option.isNone_iff_eq_none.mp (Option.isSome_eq_false_iff.mp h)

/-- What is shown keeps up with the picture while a run goes on. -/
theorem Faithful.story {moments : List (Moment τ (σ × List Asked))} (h : Faithful p deeds)
    (hstory : Story H.recording p moments q) (hongoing : Ongoing moments) :
    Faithful q (deeds ++ deedsOf moments) := by
  refine Story.carry (fun deed => deed.isLast = false) ?_ deeds h hstory hongoing
  intro p q deeds deed h hdoes hlast
  exact h.does hdoes (fault?_of_ongoing hlast)

/-- In front of each moment of a run, what is shown has kept up with the picture. -/
theorem Faithful.split {before after : List (Moment τ (σ × List Asked))}
    {moment : Moment τ (σ × List Asked)} {r : Pacer τ (σ × List Asked)} (h : Faithful p deeds)
    (hstory : Story H.recording p (before ++ moment :: after) r) :
    ∃ q, Faithful q (deeds ++ deedsOf before) ∧ Ongoing before ∧
      Does H.recording q moment.deed moment.pacer := by
  obtain ⟨q, hbefore, hongoing, hdoes⟩ := hstory.split
  exact ⟨q, h.story hbefore hongoing, hongoing, hdoes⟩

/-- A picture is handed over exactly if it is marked. -/
theorem isSome_picture? (p : Pacer τ σ) : p.picture?.isSome = p.machine.display.changed := by
  unfold picture?
  split
  · rename_i hchanged
    exact hchanged.symm
  · rename_i hchanged
    exact (Bool.eq_false_iff.mpr hchanged).symm

theorem Does.picture_eq {H : Host σ} {p q : Pacer τ σ} {quit : Bool}
    {picture : Option (Array UInt8)} (h : Does H p (.updated quit picture) q) :
    picture = p.picture? := by
  cases h <;> rfl

/-- No update leaves a mark on the picture. -/
theorem Does.unmarked {H : Host σ} {p q : Pacer τ σ} {quit : Bool}
    {picture : Option (Array UInt8)} (h : Does H p (.updated quit picture) q) :
    q.machine.display.changed = false := by
  have hupdated (next : τ) : (p.updated H next).machine.display.changed = false := by
    rw [updated_machine]
    split
    · rfl
    · rename_i hchanged
      exact Bool.eq_false_iff.mpr hchanged
  cases h with
  | update next hpump => exact hupdated next
  | quit hpump => exact hupdated p.nextDisplay

/-! ## All runs -/

/-- A new machine, with programs loaded, shows an unlit picture. -/
theorem faithful_of_loads (p : Pacer τ (σ × List Asked)) (state : σ) (random : RandomSource)
    (programs : List (Array UInt8)) :
    Faithful { p with
      machine := (Machine.fresh random).performAll (programs.map .load)
      host := (state, []) } [] where
  bounded := ((Machine.Reachable.fresh random).performAll _).bounded
  due := by
    rw [Machine.performAll_load_display]
    constructor
    · rintro ⟨⟩
    · intro hdue
      exact absurd hdue not_pictureDue_nil
  shown := by
    intro _
    rw [Machine.performAll_load_display]
    exact Array.map_replicate

variable [Time τ]

/-- A run on a new machine, with any programs loaded, never loses a picture, on any host
and at any readings of the clock:

* its deeds lead, one by one, to where it ends, and the host was asked for just these
  deeds, in the whole run and up to each moment;
* after each completed turn and each update, a picture without a mark is the one that
  the host was last asked to draw, and this one shows which of the 64 by 32 pixels are lit;
* an update hands the picture over exactly if one was drawn since the last that was;
* a run that the user ends does so with an update that is its last deed, and the
  picture it leaves is the one that the host was last asked to draw, pixel by pixel. -/
theorem no_picture_is_lost (H : Host σ) (p : Pacer τ (σ × List Asked)) (state : σ)
    (random : RandomSource) (programs : List (Array UInt8)) (readings : List τ) :
    let start := { p with
      machine := (Machine.fresh random).performAll (programs.map .load)
      host := (state, []) }
    let story := start.moments H.recording .ready readings
    let outcome := start.run H.recording readings
    Story H.recording start story outcome.pacer ∧
      outcome.pacer.host.2 = (deedsOf story).flatMap Deed.asked ∧
      (∀ before moment after, story = before ++ moment :: after →
        moment.pacer.host.2 = (deedsOf (before ++ [moment])).flatMap Deed.asked ∧
        (moment.deed.fault? = none → moment.pacer.machine.display.changed = false →
          moment.pacer.machine.display.frame = lastDrawn moment.pacer.host.2 ∧
            Depicts (lastDrawn moment.pacer.host.2) moment.pacer.machine.display) ∧
        ∀ quit picture, moment.deed = .updated quit picture →
          (picture.isSome = true ↔ PictureDue (deedsOf before))) ∧
      (outcome.ending = .quit →
        ∃ before picture, story = before ++ [⟨.updated true picture, outcome.pacer⟩] ∧
          (∀ moment ∈ before, ∀ earlier, moment.deed ≠ .updated true earlier) ∧
          outcome.pacer.machine.display.frame = lastDrawn outcome.pacer.host.2 ∧
          Depicts (lastDrawn outcome.pacer.host.2) outcome.pacer.machine.display) := by
  intro start story outcome
  have hstart : Faithful start [] := faithful_of_loads p state random programs
  obtain ⟨hstory, hquits⟩ : Story H.recording start story outcome.pacer ∧
      (outcome.ending = .quit → Quits story outcome.pacer) :=
    story_runFrom H.recording start .ready readings
  refine ⟨hstory, hstory.record, ?_, ?_⟩
  · -- A moment of the run is a deed at the end of a shorter story.
    intro before moment after heq
    rw [heq] at hstory
    obtain ⟨q, hfaithful, -, hdoes⟩ := hstart.split hstory
    refine ⟨hstory.upTo.record, ?_, ?_⟩
    · intro hdone
      exact (hfaithful.does hdoes hdone).depicts
    · intro quit picture hdeed
      rw [hdeed] at hdoes
      rw [hdoes.picture_eq, isSome_picture?]
      exact hfaithful.due
  · -- The last deed of such a run is an update, which leaves no mark.
    intro hquit
    obtain ⟨before, picture, heq⟩ := hquits hquit
    rw [heq] at hstory
    obtain ⟨q, hfaithful, hongoing, hdoes⟩ := hstart.split hstory
    refine ⟨before, picture, heq, ?_, ?_⟩
    · intro moment hmem earlier hdeed
      have hlast := hongoing moment hmem
      rw [hdeed] at hlast
      cases hlast
    · exact (hfaithful.does hdoes rfl).depicts hdoes.unmarked

end Pacer

end Chip8
