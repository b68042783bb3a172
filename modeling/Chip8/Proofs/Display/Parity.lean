import Chip8.Proofs.Display.Overlay
import Chip8.Proofs.History
import Mathlib.Algebra.Ring.Parity

/-!
# Chip8.Proofs.Display.Parity — a pixel is lit if it was turned over an odd number of times

A picture of any size goes through calls: pixels are turned over at any coordinates, and the
picture is cleared, reset, marked and settled in between. What it shows in the end is said
here from the calls alone:

* `flips` — how often a pixel was turned over since the picture was unlit, by any coordinates
  that wrap to it.
* `lastMark?` — the last call that set the mark of a picture or took it away.
* `Tallies` — a pixel is lit exactly if its number of flips is odd, and the picture is marked
  exactly if the last call about the mark set it.

`Tallies.perform` is the step lemma about one call, `lit_after_odd_flips` the result about any
number of them. It speaks of the bytes of the frame, so that the place of a pixel counts too.
-/

namespace Chip8.Display

/-! ## Calls -/

/-- A call that changes a picture. -/
inductive Call where
  | flip (x y : Int)
  | clear
  | reset
  | touch
  | settle
deriving DecidableEq

/-- What a call leaves. A pixel is only turned over where the picture has one. -/
def perform (d : Display) : Call → Display
  | .flip x y =>
    match d.flip? x y with
    | some (d', _) => d'
    | none => d
  | .clear => d.clear
  | .reset => d.reset
  | .touch => d.touch
  | .settle => d.settle

/-- What a row of calls leaves. -/
def performAll (d : Display) (calls : List Call) : Display := calls.foldl perform d

namespace Call

/-- The call turns over the pixel that a column and a row wrap to. -/
def Flips (width height px py : Int) : Call → Prop
  | flip x y => x ≡ px [ZMOD width] ∧ y ≡ py [ZMOD height]
  | _ => False

instance (width height px py : Int) : DecidablePred (Flips width height px py)
  | flip x y => inferInstanceAs (Decidable (x ≡ px [ZMOD width] ∧ y ≡ py [ZMOD height]))
  | clear | reset | touch | settle => inferInstanceAs (Decidable False)

/-- Whether a call unlights the whole picture. -/
def unlights : Call → Bool
  | clear | reset => true
  | flip _ _ | touch | settle => false

/-- Whether a call sets the mark of a picture or takes it away. -/
def marks : Call → Bool
  | flip _ _ => false
  | clear | reset | touch | settle => true

end Call

/-! ## What the calls say -/

/-- The calls since the last one that unlit the picture. -/
def sinceUnlit (calls : List Call) : List Call := History.since Call.unlights calls

/-- How often the pixel in column `px` and row `py` was turned over since it was unlit. -/
def flips (width height px py : Int) (calls : List Call) : Nat :=
  (sinceUnlit calls).countP (Call.Flips width height px py ·)

/-- The last call that set the mark of the picture or took it away. -/
def lastMark? (calls : List Call) : Option Call := (calls.filter Call.marks).getLast?

variable {d : Display} {width height px py : Int} {call : Call} {calls : List Call}

/-- After a call that unlights the picture there are no flips to count. -/
theorem flips_of_unlights (h : call.unlights = true) (calls : List Call) :
    flips width height px py (calls ++ [call]) = 0 := by
  rw [flips, sinceUnlit, History.since_of_kind h, List.countP_nil]

/-- Any other call adds one flip, or none. -/
theorem flips_concat (h : call.unlights = false) (calls : List Call) :
    flips width height px py (calls ++ [call]) =
      flips width height px py calls + if call.Flips width height px py then 1 else 0 := by
  rw [flips, sinceUnlit, History.since_concat h, List.countP_append, List.countP_singleton]
  simp only [decide_eq_true_eq]
  rfl

/-- A call about the mark is the last of its kind, and any other call leaves that as it was. -/
theorem lastMark?_concat (calls : List Call) (call : Call) :
    lastMark? (calls ++ [call]) = if call.marks then some call else lastMark? calls :=
  History.getLast?_filter_concat Call.marks calls call

/-! ## One call -/

/-- A picture that has a pixel at all has one for any coordinates. -/
theorem Whole.flip?_eq_some (h : d.Whole) (x y : Int) : d.flip? x y = some (d.flip x y) := by
  have hwidth := h.width
  have hheight := h.height
  rw [flip?, if_neg (by omega)]

/-- A call that turns a pixel over does so. -/
theorem Whole.perform_flip (h : d.Whole) (x y : Int) :
    d.perform (.flip x y) = (d.flip x y).1 := by
  rw [perform, h.flip?_eq_some]

/-- A pixel that is turned over changes, at all coordinates that wrap to it, and no other does.
-/
theorem Whole.lit_flip (h : d.Whole) (x y px py : Int) :
    (d.flip x y).1.lit px py =
      (d.lit px py ^^ decide (x ≡ px [ZMOD d.width] ∧ y ≡ py [ZMOD d.height])) := by
  have hplace : d.location px py = d.location x y ↔
      x ≡ px [ZMOD d.width] ∧ y ≡ py [ZMOD d.height] := eq_comm.trans h.location_eq_iff
  -- The pixels with the same place are those whose coordinates wrap alike.
  rw [flip_eq_overlay]
  show (d.overlay _).pixels.getD (d.location px py) false = _
  rw [getD_overlay (h.location_lt px py)]
  simp only [hplace]
  rfl

/-- A call keeps the size of a picture. -/
theorem Whole.perform (h : d.Whole) (call : Call) :
    (d.perform call).Whole ∧ (d.perform call).width = d.width ∧
      (d.perform call).height = d.height := by
  have hunlit : (d.unlit.area : Int) = d.width * d.height := by rw [d.area_unlit, h.area]
  cases call with
  | flip x y =>
    rw [h.perform_flip, flip_eq_overlay]
    exact ⟨⟨h.width, h.height, (overlay_area _).symm ▸ h.area⟩, rfl, rfl⟩
  | clear | reset => exact ⟨⟨h.width, h.height, hunlit⟩, rfl, rfl⟩
  | touch | settle => exact ⟨⟨h.width, h.height, h.area⟩, rfl, rfl⟩

/-- A call unlights every pixel, or it turns over the one that it is about, if any. -/
theorem Whole.lit_perform (h : d.Whole) (call : Call) (px py : Int) :
    (d.perform call).lit px py =
      if call.unlights then false
      else d.lit px py ^^ decide (call.Flips d.width d.height px py) := by
  cases call with
  | flip x y =>
    rw [h.perform_flip]
    exact h.lit_flip x y px py
  | clear | reset => exact d.lit_unlit px py
  | touch | settle => exact (Bool.xor_false _).symm

/-- Only a call about the mark changes it, and sets it if it clears or touches the picture. -/
theorem Whole.changed_perform (h : d.Whole) (call : Call) :
    (d.perform call).changed = true ↔
      if call.marks then call = .clear ∨ call = .touch else d.changed = true := by
  cases call with
  | flip x y =>
    rw [h.perform_flip]
    rfl
  | clear => exact iff_of_true rfl (.inl rfl)
  | touch => exact iff_of_true rfl (.inr rfl)
  -- The other two calls about the mark take it away.
  | reset | settle =>
    refine iff_of_false Bool.false_ne_true ?_
    rintro (hcall | hcall) <;> cases hcall

/-! ## All calls -/

/-- A picture shows what the calls on it say. -/
structure Tallies (width height : Int) (d : Display) (calls : List Call) : Prop where
  whole : d.Whole
  columns : d.width = width
  rows : d.height = height
  lit (px py : Int) : d.lit px py = true ↔ Odd (flips width height px py calls)
  changed : d.changed = true ↔ lastMark? calls = some .clear ∨ lastMark? calls = some .touch

/-- A new picture was not turned over anywhere, and has no mark. -/
theorem Tallies.blank (hwidth : 1 ≤ width) (hheight : 1 ≤ height) :
    Tallies width height (blank width height) [] where
  whole := Whole.blank hwidth hheight
  columns := rfl
  rows := rfl
  lit px py := by
    have hnone : flips width height px py [] = 0 := rfl
    rw [lit_blank, hnone]
    exact iff_of_false Bool.false_ne_true (by decide)
  changed := iff_of_false Bool.false_ne_true (by decide)

/-- A picture keeps its tally through every call. -/
theorem Tallies.perform (h : Tallies width height d calls) (call : Call) :
    Tallies width height (d.perform call) (calls ++ [call]) := by
  obtain ⟨hwhole, hwidth, hheight⟩ := h.whole.perform call
  refine ⟨hwhole, hwidth.trans h.columns, hheight.trans h.rows, fun px py => ?_, ?_⟩
  · -- Whether a pixel is lit goes by the parity, and the parity changes just where the pixel
    -- does.
    rw [h.whole.lit_perform, h.columns, h.rows]
    cases hunlights : call.unlights with
    | true =>
      -- The count starts again from zero.
      rw [if_pos rfl, flips_of_unlights hunlights]
      exact iff_of_false Bool.false_ne_true (by decide)
    | false =>
      rw [if_neg Bool.false_ne_true, flips_concat hunlights]
      by_cases hflips : call.Flips width height px py
      · rw [if_pos hflips, Nat.odd_add_one, ← h.lit px py]
        simp [hflips]
      · rw [if_neg hflips, Nat.add_zero, ← h.lit px py]
        simp [hflips]
  · -- The mark goes by the last call that was about it.
    rw [h.whole.changed_perform, lastMark?_concat]
    split
    · simp
    · exact h.changed

/-- A picture keeps its tally through any calls. -/
theorem Tallies.performAll (h : Tallies width height d []) (calls : List Call) :
    Tallies width height (d.performAll calls) calls := by
  -- By induction on the calls from the last one on, since the count looks back from there.
  induction calls using List.reverseRecOn with
  | nil => exact h
  | append_singleton calls call ih =>
    rw [Display.performAll, List.foldl_append]
    exact ih.perform call

/-- To turn a pixel over is to put the other byte in its place, and nothing anywhere else. -/
theorem Whole.frame_flip (h : d.Whole) (x y : Int) (p : Nat) :
    (d.flip x y).1.frame[p]? =
      if p = d.location x y then some (if d.lit x y then 0 else 1) else d.frame[p]? := by
  have hlt : d.location x y < d.pixels.size := h.location_lt x y
  rw [flip_eq_overlay]
  split
  · next hp =>
    subst hp
    simp only [frame, overlay, lit, Array.getElem?_map, Array.getElem?_mapIdx,
      Array.getD_eq_getD_getElem?, Array.getElem?_eq_getElem hlt]
    cases d.pixels[d.location x y] <;> simp
  · next hp => simp [frame, overlay, hp]

/-- Just one byte of the frame changes when a pixel is turned over. -/
theorem Whole.frame_flip_ne_iff (h : d.Whole) (x y : Int) (p : Nat) :
    (d.flip x y).1.frame[p]? ≠ d.frame[p]? ↔ p = d.location x y := by
  rw [h.frame_flip]
  split
  · next hp =>
    -- At the place itself one byte is replaced by the other.
    rw [hp, h.frame_location]
    refine iff_of_true ?_ rfl
    cases d.lit x y <;> decide
  · next hp => exact iff_of_false (fun hne => hne rfl) hp

/-- There is a new picture of every size that there is room for. -/
theorem ofSize_eq_ok (hwidth : 1 ≤ width) (hheight : 1 ≤ height)
    (hroom : width * height ≤ largestRoom) :
    ofSize width height = .ok (blank width height) := by
  have hnonneg : 0 ≤ width * height := Int.mul_nonneg (by omega) (by omega)
  obtain ⟨size, hsize⟩ := Int.eq_ofNat_of_zero_le hnonneg
  rw [ofSize, hsize, room_natCast (by omega)]
  rfl

/-- A picture of any size is a sum of the pixels that were turned over. After any calls on a
new picture,

* it has a byte for every pixel, which is zero or one;
* the byte of a pixel is one exactly if, since the picture was unlit, an odd number of calls
  turned over coordinates that wrap to the pixel;
* any coordinates may be turned over: they have a place in the picture, the answer says
  whether the pixel there was lit, and its byte becomes the other one, and no other changes;
* the picture is marked exactly if the last call about the mark cleared or touched it. -/
theorem lit_after_odd_flips {width height : Int} (hwidth : 1 ≤ width) (hheight : 1 ≤ height)
    (calls : List Call) :
    let d := (blank width height).performAll calls
    (width * height ≤ largestRoom → ofSize width height = .ok (blank width height)) ∧
      ((d.frame.size : Int) = width * height ∧ ∀ byte ∈ d.frame, byte = 0 ∨ byte = 1) ∧
      (∀ px py, 0 ≤ px → px < width → 0 ≤ py → py < height →
        d.frame[(py * width + px).toNat]? =
          some (if Odd (flips width height px py calls) then 1 else 0)) ∧
      (∀ x y, ∃ d' answer, d.flip? x y = some (d', answer) ∧
        (d.location x y : Int) = y % height * width + x % width ∧
        d.location x y < d.frame.size ∧
        (answer = true ↔ d.frame[d.location x y]? = some 1) ∧
        d'.frame[d.location x y]? = some (if answer then 0 else 1) ∧
        ∀ p, d'.frame[p]? ≠ d.frame[p]? ↔ p = d.location x y) ∧
      (d.changed = true ↔ lastMark? calls = some .clear ∨ lastMark? calls = some .touch) := by
  intro d
  have h : Tallies width height d calls := (Tallies.blank hwidth hheight).performAll calls
  have hsize : d.frame.size = d.area := d.size_frame
  refine ⟨ofSize_eq_ok hwidth hheight, ⟨?_, fun byte => mem_frame⟩, ?_, fun x y => ?_, h.changed⟩
  · -- The bytes of the frame are as many as the pixels.
    rw [hsize, h.whole.area, h.columns, h.rows]
  · -- The byte of a pixel, by its place and then by its parity.
    intro px py hleft hright htop hbottom
    rw [← h.columns, ← h.whole.location_of_bounds hleft (h.columns ▸ hright) htop
      (h.rows ▸ hbottom), h.whole.frame_location, h.columns]
    simp only [h.lit]
  · -- What turning one pixel over answers and leaves.
    refine ⟨_, _, h.whole.flip?_eq_some x y, ?_, ?_, ?_, ?_, h.whole.frame_flip_ne_iff x y⟩
    · rw [h.whole.location_eq, h.columns, h.rows]
    · rw [hsize]
      exact h.whole.location_lt x y
    · rw [h.whole.frame_location]
      show d.lit x y = true ↔ _
      cases d.lit x y <;> decide
    · exact (h.whole.frame_flip x y _).trans (if_pos rfl)

/-- Pixels of a picture of three by two are turned over, also beyond all of its edges. -/
def scribbled : List Call :=
  [.flip 1 1, .touch, .clear, .flip 4 (-1), .flip 2 0, .flip (-2) 1, .settle, .flip 5 (-2),
    .flip 1 3]

/-- Since the picture was cleared, one pixel was turned over three times and another one
twice. -/
theorem scribbled_is_lit :
    let d := (blank 3 2).performAll scribbled
    (1 : Int) ≤ 3 ∧ (1 : Int) ≤ 2 ∧ d.frame[(1 * 3 + 1 : Int).toNat]? = some 1 ∧
      d.frame[(0 * 3 + 2 : Int).toNat]? = some 0 ∧ d.changed = false := by
  intro d
  have hwidth : (1 : Int) ≤ 3 := by decide
  have hheight : (1 : Int) ≤ 2 := by decide
  obtain ⟨-, -, hpixels, -, hchanged⟩ := lit_after_odd_flips hwidth hheight scribbled
  have hlit := hpixels 1 1 (by decide) (by decide) (by decide) (by decide)
  have hunlit := hpixels 2 0 (by decide) (by decide) (by decide) (by decide)
  refine ⟨hwidth, hheight, hlit.trans (by decide), hunlit.trans (by decide), ?_⟩
  rw [Bool.eq_false_iff, ne_eq, hchanged]
  decide

end Chip8.Display
