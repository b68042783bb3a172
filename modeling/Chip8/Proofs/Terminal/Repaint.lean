import Chip8.Proofs.Terminal.Pad

/-!
# Chip8.Proofs.Terminal.Repaint — what is on the pad gets onto the screen

What is written on the pad is not on the screen until the pad is shown, and a screen of a
new size is cleared before the pad is shown on it again. `Screen.pending` keeps account of
this. Here it is said from the calls alone what is missing on the screen:

* `Outdated` — since the pad was shown last, something was written on it or the screen was
  cleared.
* `Tracks` — the mark says whether the calls leave the screen outdated, and the size that a
  screen remembers is the one that it saw last.
* `Tracks.answer` is the step lemma about one request, `nothing_pending_is_forgotten` the
  result about any number of them.

The size of the screen may change between any two requests. A screen that notices it leaves
the pad to its next request, which finds the mark set.
-/

namespace Chip8.Terminal

open History (HasLast)

/-! ## Outdated screens -/

/-- The call shows the pad. -/
def Call.ShowsPad (call : Call) : Prop := ∃ row column, call = .showPad row column

/-- After the call the screen does not show what is on the pad: it was cleared, or something
was written in a cell of the pad. -/
def Call.Outdates (call : Call) : Prop :=
  call = .clear ∨ ∃ row column cell, call.cell? row column = some cell

/-- After these calls the screen does not show what is on the pad. -/
def Outdated (calls : List Call) : Prop :=
  HasLast Call.Outdates (fun later => ¬ later.ShowsPad) calls

/-- The size of the screen that is seen. -/
def Request.size? : Request → Option (Int × Int)
  | .refresh size _ => some size
  | _ => none

/-- The size of the screen that was seen last. -/
def lastSize? (requests : List Request) : Option (Int × Int) :=
  (requests.filterMap Request.size?).getLast?

variable {s : Screen} {requests : List Request} {calls more : List Call} {call : Call}

/-- A call that outdates the screen is not one that shows the pad. -/
theorem Call.not_showsPad_of_outdates (h : call.Outdates) : ¬ call.ShowsPad := by
  rintro ⟨row, column, rfl⟩
  rcases h with hclear | ⟨_, _, cell, hcell⟩
  · cases hclear
  · cases hcell

/-- A text that is not empty is written in a cell. -/
theorem Call.outdates_write {text : Text} (h : text ≠ []) (row column : Int) (reverse : Bool) :
    (Call.write row column text reverse).Outdates := by
  obtain ⟨first, rest, rfl⟩ := List.exists_cons_of_ne_nil h
  refine .inr ⟨row, column, ⟨first, reverse⟩, ?_⟩
  rw [Call.cell?, if_pos ⟨rfl, Int.le_refl column⟩, Int.sub_self]
  rfl

/-- Calls that do nothing but leave the screen outdated. -/
theorem outdated_append_of_forall (hne : more ≠ []) (h : ∀ call ∈ more, call.Outdates) :
    Outdated (calls ++ more) :=
  (History.hasLast_append more).mpr (.inl (History.hasLast_of_forall hne h))

/-- Once the pad was shown, nothing is missing on the screen. -/
theorem not_outdated_of_showsPad (h : call.ShowsPad) : ¬ Outdated (calls ++ [call]) := by
  -- The last call decides, and it is no call that outdates.
  intro houtdated
  rcases History.hasLast_concat.mp houtdated with hlast | ⟨hlast, -⟩
  · exact Call.not_showsPad_of_outdates hlast h
  · exact hlast h

/-! ## The three ways to bring a screen up to date -/

namespace Screen

/-- On a screen of the same size, what is pending is shown. -/
theorem refresh_of_pending {size : Int × Int} (hsame : size = s.lastSize) (h : s.pending = true)
    (canResize : Bool) :
    s.refresh size canResize =
      ({ s with pending := false }, [.showPad (size.1 - 1) (size.2 - 1)]) := by
  rw [refresh, if_pos hsame, if_pos h]

/-- Where nothing is pending, nothing is called. -/
theorem refresh_of_settled {size : Int × Int} (hsame : size = s.lastSize) (h : s.pending = false)
    (canResize : Bool) : s.refresh size canResize = (s, []) := by
  rw [refresh, if_pos hsame, if_neg (Bool.not_eq_true _ ▸ h)]

/-- What is done to a screen of a new size. -/
def clearing (size : Int × Int) (canResize : Bool) : List Call :=
  .clear :: (if canResize then [.resize size.1 size.2] else []) ++ [.refresh]

/-- A screen of another size is cleared, and all is pending again. -/
theorem refresh_of_other {size : Int × Int} (hother : size ≠ s.lastSize) (canResize : Bool) :
    s.refresh size canResize =
      ({ s with lastSize := size, pending := true }, clearing size canResize) := by
  rw [refresh, if_neg hother]
  rfl

theorem not_showsPad_of_clearing {size : Int × Int} {canResize : Bool} :
    ∀ call ∈ clearing size canResize, ¬ call.ShowsPad := by
  rintro call hmem ⟨row, column, rfl⟩
  cases canResize <;> simp [clearing] at hmem

end Screen

/-- A screen of a new size is cleared, and the pad is not shown. -/
theorem outdated_append_clearing (size : Int × Int) (canResize : Bool) :
    Outdated (calls ++ Screen.clearing size canResize) := by
  refine (History.hasLast_append _).mpr (.inl ⟨[], .clear, _, rfl, .inl rfl, ?_⟩)
  intro later hmem
  exact Screen.not_showsPad_of_clearing later (List.mem_cons_of_mem _ hmem)

/-! ## One request -/

/-- A screen keeps account of what was asked of it, and of the calls that it made. -/
structure Tracks (s : Screen) (requests : List Request) (calls : List Call) : Prop where
  /-- A screen that saw no size yet remembers one that no screen has. -/
  lastSize : s.lastSize = (lastSize? requests).getD (-1, -1)
  pending : s.pending = true ↔ Outdated calls

/-- A request that sees no size and makes no calls. -/
theorem Tracks.idle (h : Tracks s requests calls) {r : Request} (hsize : r.size? = none)
    (title : Value) : Tracks { s with title := title } (requests ++ [r]) (calls ++ []) := by
  have hsizes : lastSize? (requests ++ [r]) = lastSize? requests := getLast?_of_not_asked hsize
  rw [List.append_nil]
  exact ⟨hsizes ▸ h.lastSize, h.pending⟩

/-- A request that sees no size and leaves the screen outdated, and says so. -/
theorem Tracks.outdate (h : Tracks s requests calls) {r : Request} (hsize : r.size? = none)
    {s' : Screen} (hlastSize : s'.lastSize = s.lastSize) (hpending : s'.pending = true)
    (hne : more ≠ []) (hmore : ∀ call ∈ more, call.Outdates) :
    Tracks s' (requests ++ [r]) (calls ++ more) := by
  have hsizes : lastSize? (requests ++ [r]) = lastSize? requests := getLast?_of_not_asked hsize
  refine ⟨?_, ?_⟩
  · rw [hsizes, hlastSize]
    exact h.lastSize
  · exact iff_of_true hpending (outdated_append_of_forall hne hmore)

/-- A picture leaves the screen outdated, since a pixel is at least one character wide. -/
theorem Tracks.draw (hs : 1 ≤ s.scale) (h : Tracks s requests calls) (frame : Vector UInt8 2048) :
    Tracks (s.draw frame.toArray).1 (requests ++ [.draw frame])
      (calls ++ (s.draw frame.toArray).2) := by
  have hspaces : Screen.spaces s.scale ≠ [] := by
    rw [Screen.spaces, ne_eq, List.replicate_eq_nil_iff]
    omega
  refine h.outdate rfl rfl rfl ?_ ?_
  · -- The first pixel is written, whatever it is.
    exact List.ne_nil_of_mem (Screen.mem_draw_iff.mpr ⟨0, by decide, rfl⟩)
  · intro call hmem
    obtain ⟨location, hlocation, rfl⟩ := Screen.mem_draw_iff.mp hmem
    exact Call.outdates_write hspaces _ _ _

/-- So does a title that fits. -/
theorem Tracks.setTitle (h : Tracks s requests calls) (title : Text) :
    Tracks (s.setTitle title).1 (requests ++ [.title title])
      (calls ++ (s.setTitle title).2) := by
  unfold Screen.setTitle
  by_cases hfits : 0 < s.lineLength - title.length
  · have hwritten : title ++ Screen.spaces (s.lineLength - title.length) ≠ [] := by
      rw [Screen.spaces]
      refine List.append_ne_nil_of_right_ne_nil title ?_
      rw [ne_eq, List.replicate_eq_nil_iff]
      omega
    simp only [if_pos hfits]
    refine h.outdate rfl rfl rfl (List.cons_ne_nil _ _) ?_
    exact List.forall_mem_singleton.mpr (Call.outdates_write hwritten 0 0 true)
  · -- A title that is too long is not written, and the mark stays as it is.
    simp only [if_neg hfits]
    exact h.idle rfl (.text title)

/-- Refreshing sees the size, and what it leaves is told by the mark. -/
theorem Tracks.refresh (h : Tracks s requests calls) (size : Int × Int) (canResize : Bool) :
    Tracks (s.refresh size canResize).1 (requests ++ [.refresh size canResize])
      (calls ++ (s.refresh size canResize).2) := by
  have hsizes : lastSize? (requests ++ [.refresh size canResize]) = some size :=
    getLast?_of_asked rfl
  -- The pad is shown only if the size is still the same.
  by_cases hsame : size = s.lastSize
  · have hseen :
        s.lastSize = (lastSize? (requests ++ [.refresh size canResize])).getD (-1, -1) := by
      rw [hsizes]
      exact hsame.symm
    cases hpending : s.pending with
    | true =>
      rw [Screen.refresh_of_pending hsame hpending]
      exact ⟨hseen, iff_of_false Bool.false_ne_true (not_outdated_of_showsPad ⟨_, _, rfl⟩)⟩
    | false =>
      rw [Screen.refresh_of_settled hsame hpending, List.append_nil]
      exact ⟨hseen, h.pending⟩
  · rw [Screen.refresh_of_other hsame]
    refine ⟨?_, iff_of_true rfl (outdated_append_clearing size canResize)⟩
    rw [hsizes]
    rfl

/-- No request makes the screen lose account. -/
theorem Tracks.answer (hs : 1 ≤ s.scale) (h : Tracks s requests calls) (r : Request) :
    Tracks (s.answer r).1 (requests ++ [r]) (calls ++ (s.answer r).2) := by
  cases r with
  | title title => exact h.setTitle title
  | draw frame => exact h.draw hs frame
  | refresh size canResize => exact h.refresh size canResize

/-! ## All requests -/

/-- A screen that was just taken over has nothing to show, and saw no size. -/
theorem Tracks.start {scale cursorMode : Value} {refused : Bool} {opening : List Call}
    (h : Screen.start scale cursorMode refused = (opening, .ok s)) : Tracks s [] opening := by
  unfold Screen.start at h
  split at h
  · cases h
  · split at h
    · cases h
    · cases h
      refine ⟨rfl, iff_of_false Bool.false_ne_true ?_⟩
      rintro ⟨before, entry, after, hopening, houtdates, -⟩
      have hmem : entry ∈ before ++ entry :: after := List.mem_append_right _ List.mem_cons_self
      rw [← hopening] at hmem
      rcases houtdates with rfl | ⟨row, column, cell, hcell⟩
      · simp at hmem
      · -- None of the calls that take the terminal over writes anything.
        cases entry with
        | write => simp at hmem
        | _ => cases hcell

/-- Whatever was asked of it, a screen keeps account. -/
theorem Tracks.answerAll (hs : 1 ≤ s.scale) (h : Tracks s [] calls) (requests : List Request) :
    Tracks (s.answerAll requests).1 requests (calls ++ (s.answerAll requests).2) := by
  induction requests using List.reverseRecOn with
  | nil =>
    rw [show (s.answerAll []).2 = [] from rfl, List.append_nil]
    exact h
  | append_singleton requests r ih =>
    have hscale := s.answerAll_scale requests
    rw [Screen.answerAll_concat, ← List.append_assoc]
    exact ih.answer (hscale ▸ hs) r

/-- The pad is shown by nothing but a request to refresh the screen, and on a screen of the
size that this very request sees. -/
theorem size_of_showPad {r : Request} {row column : Int}
    (h : .showPad row column ∈ (s.answer r).2) :
    ∃ size canResize, r = .refresh size canResize ∧ row = size.1 - 1 ∧ column = size.2 - 1 := by
  cases r with
  | title title =>
    simp only [Screen.answer, Screen.setTitle] at h
    split at h <;> simp at h
  | draw frame =>
    obtain ⟨location, hlocation, hcell⟩ := Screen.mem_draw_iff.mp h
    cases hcell
  | refresh size canResize =>
    refine ⟨size, canResize, rfl, ?_⟩
    simp only [Screen.answer, Screen.refresh] at h
    split at h
    · split at h
      · cases List.mem_singleton.mp h
        exact ⟨rfl, rfl⟩
      · cases h
    · cases canResize <;> simp at h

/-- A terminal forgets nothing that it has to show. Whatever was asked of it since it was
taken over, and whatever sizes it had meanwhile,

* the mark is set exactly if something was written on the pad, or the screen was cleared,
  since the pad was shown last;
* a request that sees the same size as the one before it leaves nothing to show. It shows
  the pad, once, if the screen was outdated, and else makes no call;
* a request that sees another size, or the first one, clears the screen and does not show
  the pad, which is left to the next one;
* the pad is never shown on a screen of another size than the request sees. -/
theorem nothing_pending_is_forgotten {scale cursorMode : Value} {refused : Bool}
    {opening : List Call} (hstart : Screen.start scale cursorMode refused = (opening, .ok s))
    (hs : 1 ≤ s.scale) (requests : List Request) :
    let t := (s.answerAll requests).1
    let calls := opening ++ (s.answerAll requests).2
    (t.pending = true ↔ Outdated calls) ∧
      (∀ size canResize, lastSize? requests = some size →
        (t.refresh size canResize).1.pending = false ∧
          (Outdated calls →
            (t.refresh size canResize).2 = [.showPad (size.1 - 1) (size.2 - 1)]) ∧
          (¬ Outdated calls → (t.refresh size canResize).2 = [])) ∧
      (∀ size canResize, 0 ≤ size.1 → lastSize? requests ≠ some size →
        (t.refresh size canResize).1.pending = true ∧
          .clear ∈ (t.refresh size canResize).2 ∧
          ∀ call ∈ (t.refresh size canResize).2, ¬ call.ShowsPad) ∧
      ∀ r row column, .showPad row column ∈ (t.answer r).2 →
        ∃ size canResize, r = .refresh size canResize ∧
          row = size.1 - 1 ∧ column = size.2 - 1 := by
  intro t calls
  have htracks : Tracks t requests calls := (Tracks.start hstart).answerAll hs requests
  refine ⟨htracks.pending, ?_, ?_, fun r row column => size_of_showPad⟩
  · intro size canResize hsize
    have hsame : size = t.lastSize := by
      rw [htracks.lastSize, hsize, Option.getD_some]
    rw [← htracks.pending]
    cases hpending : t.pending with
    | true =>
      rw [Screen.refresh_of_pending hsame hpending]
      exact ⟨rfl, fun _ => rfl, fun h => absurd rfl h⟩
    | false =>
      rw [Screen.refresh_of_settled hsame hpending]
      exact ⟨hpending, fun h => absurd h Bool.false_ne_true, fun _ => rfl⟩
  · intro size canResize hrows hsize
    -- No screen has as many rows as one that saw none is taken to have.
    have hother : size ≠ t.lastSize := by
      rw [htracks.lastSize]
      cases hlast : lastSize? requests with
      | none =>
        rintro rfl
        exact absurd hrows (by decide)
      | some last =>
        rintro rfl
        exact hsize hlast
    rw [Screen.refresh_of_other hother]
    exact ⟨rfl, List.mem_append_left _ List.mem_cons_self, Screen.not_showsPad_of_clearing⟩

/-- The screen is seen, and then a title is set and all pixels are lit. -/
def seenAndLitUp : List Request := .refresh (24, 80) true :: litUp

/-- The pad is shown on the screen that was seen, and then again only if it was written on. -/
theorem seenAndLitUp_is_shown :
    let opening : List Call :=
      [.enter, .cursor .nothing, .echoOff, .lineModeOff, .newPad 33 65]
    let t := (narrow.answerAll seenAndLitUp).1
    Screen.start (.whole 1) .nothing false = (opening, .ok narrow) ∧ 1 ≤ narrow.scale ∧
      Outdated (opening ++ (narrow.answerAll seenAndLitUp).2) ∧
      (t.refresh (24, 80) true).2 = [.showPad 23 79] ∧
      (t.refresh (24, 80) true).1.pending = false := by
  intro opening t
  have hstart : Screen.start (.whole 1) .nothing false = (opening, .ok narrow) := rfl
  have hscale : 1 ≤ narrow.scale := by decide
  obtain ⟨hpending, hsame, -, -⟩ := nothing_pending_is_forgotten hstart hscale seenAndLitUp
  have houtdated := hpending.mp rfl
  obtain ⟨hdone, hshown, -⟩ := hsame (24, 80) true rfl
  exact ⟨hstart, hscale, houtdated, hshown houtdated, hdone⟩

end Chip8.Terminal
