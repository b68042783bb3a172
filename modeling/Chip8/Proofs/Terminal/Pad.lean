import Chip8.Proofs.History
import Chip8.Terminal.Screen
import Mathlib.Data.Int.Order.Basic
import Mathlib.Data.List.Induction

/-!
# Chip8.Proofs.Terminal.Pad — what stands on the pad of a terminal

The title and the picture are written on a pad, a run of characters at a time. Here a pad
is what stands in each of its cells (`Pad`), and a call is what it leaves there.

* `cell?_title` and `cell?_cell` — what the calls of a title and of one pixel write in a
  given cell. The column of the cell, divided by the scale, is the column of its pixel.
* `Shows` — the pad holds the last title that fits and the last picture.
* `Shows.answer` is the step lemma about one request, `pad_shows_the_last` the result about
  any number of them.

So the runs of a picture meet without gaps and never overlap, whatever the scale.
-/

namespace Chip8.Terminal

/-! ## Pads -/

/-- What stands in a cell of a pad. -/
structure Cell where
  point : CodePoint
  /-- Whether it stands there in reverse. -/
  reverse : Bool
deriving DecidableEq, Repr

/-- What stands in each cell of a pad, by its row and its column. -/
abbrev Pad := Int → Int → Cell

/-- What a call writes in a cell. The characters of a text stand side by side, the first
of them where the text is written. -/
def Call.cell? (row column : Int) : Call → Option Cell
  | .write textRow first text reverse =>
    if row = textRow ∧ first ≤ column then text[(column - first).toNat]?.map (⟨·, reverse⟩)
    else none
  | _ => none

namespace Pad

/-- The pad after a call. -/
def write (pad : Pad) (call : Call) : Pad :=
  fun row column => (call.cell? row column).getD (pad row column)

/-- The pad after several calls. -/
def writeAll (pad : Pad) (calls : List Call) : Pad := calls.foldl write pad

variable {pad : Pad} {calls : List Call} {row column : Int} {cell : Cell}

theorem writeAll_append (pad : Pad) (calls later : List Call) :
    pad.writeAll (calls ++ later) = (pad.writeAll calls).writeAll later := List.foldl_append

theorem writeAll_concat (pad : Pad) (calls : List Call) (call : Call) :
    pad.writeAll (calls ++ [call]) = (pad.writeAll calls).write call := List.foldl_append

/-- A cell that no call writes in stays as it was. -/
theorem writeAll_untouched (h : ∀ call ∈ calls, call.cell? row column = none) :
    pad.writeAll calls row column = pad row column := by
  -- By induction on the calls, none of which writes there.
  induction calls generalizing pad with
  | nil => rfl
  | cons call rest ih =>
    obtain ⟨hcall, hrest⟩ := List.forall_mem_cons.mp h
    calc pad.writeAll (call :: rest) row column
      _ = pad.write call row column := ih hrest
      _ = pad row column := by rw [write, hcall, Option.getD_none]

/-- A cell in which all calls that write there agree holds what they write. -/
theorem writeAll_agreed (hsome : ∃ call ∈ calls, call.cell? row column = some cell)
    (hagree : ∀ call ∈ calls, ∀ other, call.cell? row column = some other → other = cell) :
    pad.writeAll calls row column = cell := by
  induction calls using List.reverseRecOn with
  | nil =>
    obtain ⟨call, hmem, -⟩ := hsome
    cases hmem
  | append_singleton calls call ih =>
    obtain ⟨hbefore, hlast⟩ := List.forall_mem_append.mp hagree
    rw [writeAll_concat, write]
    -- The last call writes in the cell, or the others have to.
    cases hcall : call.cell? row column with
    | some other => exact hlast call List.mem_cons_self other hcall
    | none =>
      refine ih ?_ hbefore
      obtain ⟨writer, hmem, hwrites⟩ := hsome
      rcases List.mem_append.mp hmem with hmem | hmem
      · exact ⟨writer, hmem, hwrites⟩
      · rw [List.mem_singleton.mp hmem, hcall] at hwrites
        cases hwrites

end Pad

/-! ## Requests -/

/-- What a screen is asked to do with its pad. -/
inductive Request where
  | title (title : Text)
  | draw (frame : Vector UInt8 2048)
  | refresh (size : Int × Int) (canResize : Bool)

/-- The title that is set, if it is shorter than so many characters. -/
def Request.title? (length : Int) : Request → Option Text
  | .title text => if text.length < length then some text else none
  | _ => none

/-- The picture that is drawn. -/
def Request.frame? : Request → Option (Vector UInt8 2048)
  | .draw picture => some picture
  | _ => none

/-- The last title that is shorter than so many characters. -/
def lastTitle? (length : Int) (requests : List Request) : Option Text :=
  (requests.filterMap (Request.title? length)).getLast?

/-- The last picture. -/
def lastFrame? (requests : List Request) : Option (Vector UInt8 2048) :=
  (requests.filterMap Request.frame?).getLast?

section LastAsked

variable {α : Type} {asked? : Request → Option α} {requests : List Request} {r : Request}

/-- A request that asks for something is the last that did. -/
theorem getLast?_of_asked {a : α} (h : asked? r = some a) :
    ((requests ++ [r]).filterMap asked?).getLast? = some a := by
  rw [History.getLast?_filterMap_concat, h, Option.some_or]

theorem getLast?_of_not_asked (h : asked? r = none) :
    ((requests ++ [r]).filterMap asked?).getLast? = (requests.filterMap asked?).getLast? := by
  rw [History.getLast?_filterMap_concat, h, Option.none_or]

end LastAsked

namespace Screen

/-- A screen does what it is asked. -/
def answer (s : Screen) : Request → Screen × List Call
  | .title title => s.setTitle title
  | .draw frame => s.draw frame.toArray
  | .refresh size canResize => s.refresh size canResize

/-- A screen does one thing after the other. The calls of all of them are gathered. -/
def answerAll (s : Screen) (requests : List Request) : Screen × List Call :=
  requests.foldl (fun (s, calls) r => ((s.answer r).1, calls ++ (s.answer r).2)) (s, [])

variable {s : Screen} {requests : List Request} {row column : Int}

theorem answerAll_concat (s : Screen) (requests : List Request) (r : Request) :
    s.answerAll (requests ++ [r]) =
      (((s.answerAll requests).1.answer r).1,
        (s.answerAll requests).2 ++ ((s.answerAll requests).1.answer r).2) := List.foldl_append

/-- Neither a title nor a picture nor a refresh changes the scale. -/
theorem answer_scale (s : Screen) (r : Request) : (s.answer r).1.scale = s.scale := by
  cases r with
  | title title =>
    simp only [answer, setTitle]
    split <;> rfl
  | draw frame => rfl
  | refresh size canResize =>
    simp only [answer, refresh]
    split
    · split <;> rfl
    · rfl

/-- Nothing that is asked for changes the scale. -/
theorem answerAll_scale (s : Screen) (requests : List Request) :
    (s.answerAll requests).1.scale = s.scale := by
  -- The scale is the same before and after each request, so by induction from the last.
  induction requests using List.reverseRecOn with
  | nil => rfl
  | append_singleton requests r ih => rw [answerAll_concat, answer_scale, ih]

/-! ## One request -/

/-- The call of one pixel writes spaces in its row, as many as the scale says. -/
theorem cell?_cell (hs : 1 ≤ s.scale) (location : Nat) (pixel : UInt8) (row column : Int) :
    (s.cell (spaces s.scale) location pixel).cell? row column =
      if row = (location / displayWidth + 1 : Nat) ∧
          column / s.scale = (location % displayWidth : Nat) then
        some ⟨.char ' ', pixel != 0⟩
      else none := by
  -- The column lies in the run of the pixel exactly if it does so by division.
  have hrun : column / s.scale = (location % displayWidth : Nat) ↔
      (location % displayWidth : Nat) * s.scale ≤ column ∧
        column < (location % displayWidth : Nat) * s.scale + s.scale :=
    Int.ediv_eq_iff_of_pos (by omega)
  rw [cell, Call.cell?, spaces, List.getElem?_replicate]
  simp only [hrun]
  generalize (location % displayWidth : Nat) * s.scale = first
  generalize ((location / displayWidth + 1 : Nat) : Int) = pixelRow
  -- A cell is in the run if it is neither before its first column nor behind its last.
  by_cases hplace : row = pixelRow ∧ first ≤ column
  · by_cases hlast : column < first + s.scale
    · have hindex : (column - first).toNat < s.scale.toNat := by omega
      rw [if_pos hplace, if_pos hindex, if_pos ⟨hplace.1, hplace.2, hlast⟩, Option.map_some]
    · have hindex : ¬ (column - first).toNat < s.scale.toNat := by omega
      rw [if_pos hplace, if_neg hindex, if_neg fun h => hlast h.2.2, Option.map_none]
  · rw [if_neg hplace, if_neg fun h => hplace ⟨h.1, h.2.1⟩]

/-- The run of a pixel ends on the line. -/
theorem run_within (hs : 1 ≤ s.scale) {x : Nat} (hx : x < displayWidth) :
    0 ≤ x * s.scale ∧ x * s.scale + s.scale ≤ s.lineLength := by
  have hnext : ((x : Int) + 1) * s.scale ≤ displayWidth * s.scale :=
    Int.mul_le_mul_of_nonneg_right (by omega) (by omega)
  rw [Int.add_mul, Int.one_mul] at hnext
  exact ⟨Int.mul_nonneg (by omega) (by omega), hnext⟩

/-- The columns of the picture are those of its pixels, each as wide as the scale says. -/
theorem onLine_iff (hs : 1 ≤ s.scale) :
    (0 ≤ column ∧ column < s.lineLength) ↔ ∃ x < displayWidth, column / s.scale = (x : Nat) := by
  constructor
  · rintro ⟨hfirst, hlast⟩
    -- Dividing a column of the line by the scale gives the column of a pixel.
    have hnonneg : 0 ≤ column / s.scale := Int.ediv_nonneg hfirst (by omega)
    have hlt : column / s.scale < displayWidth := Int.ediv_lt_of_lt_mul (by omega) hlast
    exact ⟨(column / s.scale).toNat, by omega, by omega⟩
  · rintro ⟨x, hx, hcolumn⟩
    obtain ⟨hfirst, hlast⟩ := (Int.ediv_eq_iff_of_pos (by omega)).mp hcolumn
    obtain ⟨hleft, hright⟩ := run_within hs hx
    exact ⟨by omega, by omega⟩

/-- The calls of a picture are those of its pixels. -/
theorem mem_draw_iff {frame : Vector UInt8 2048} {call : Call} :
    call ∈ (s.draw frame.toArray).2 ↔
      ∃ location, ∃ h : location < 2048,
        s.cell (spaces s.scale) location frame[location] = call := by
  rw [draw, Array.mem_toList_iff, Array.mem_mapIdx]
  simp only [Vector.size_toArray]
  exact Iff.rfl

/-- Row and column of a pixel tell where it stands in the picture. -/
theorem place_iff {location y x : Nat} (hx : x < displayWidth) :
    ((y : Int) + 1 = (location / displayWidth + 1 : Nat) ∧
      (x : Int) = (location % displayWidth : Nat)) ↔ location = y * displayWidth + x := by
  unfold displayWidth at *
  omega

theorem place_lt {y x : Nat} (hy : y < displayHeight) (hx : x < displayWidth) :
    y * displayWidth + x < 2048 := by
  unfold displayWidth displayHeight at *
  omega

theorem place_onScreen {location : Nat} (h : location < 2048) :
    location / displayWidth < displayHeight ∧ location % displayWidth < displayWidth :=
  ⟨Nat.div_lt_of_lt_mul h, Nat.mod_lt _ (by decide)⟩

/-- A picture is written in the cells of its pixels. -/
theorem writeAll_draw (hs : 1 ≤ s.scale) (frame : Vector UInt8 2048) (pad : Pad) {y : Nat}
    (hy : y < displayHeight) (hcolumn : 0 ≤ column ∧ column < s.lineLength) :
    ∃ byte, frame[y * displayWidth + (column / s.scale).toNat]? = some byte ∧
      pad.writeAll (s.draw frame.toArray).2 (y + 1) column = ⟨.char ' ', byte != 0⟩ := by
  obtain ⟨x, hx, hpixel⟩ := (onLine_iff hs).mp hcolumn
  have hplace := place_lt hy hx
  rw [hpixel, Int.toNat_natCast]
  refine ⟨frame[y * displayWidth + x], Vector.getElem?_eq_getElem hplace, ?_⟩
  refine Pad.writeAll_agreed ⟨_, mem_draw_iff.mpr ⟨_, hplace, rfl⟩, ?_⟩ ?_
  · rw [cell?_cell hs, hpixel, if_pos ((place_iff hx).mpr rfl)]
  · -- No other pixel covers the cell.
    intro call hmem other hother
    obtain ⟨location, hlocation, rfl⟩ := mem_draw_iff.mp hmem
    rw [cell?_cell hs, hpixel] at hother
    split at hother
    · rename_i hcovers
      obtain rfl := (place_iff hx).mp hcovers
      exact (Option.some.inj hother).symm
    · cases hother

/-- A picture is written nowhere else. -/
theorem writeAll_draw_outside (hs : 1 ≤ s.scale) (frame : Vector UInt8 2048) (pad : Pad)
    (h : ¬ (1 ≤ row ∧ row ≤ displayHeight ∧ 0 ≤ column ∧ column < s.lineLength)) :
    pad.writeAll (s.draw frame.toArray).2 row column = pad row column := by
  refine Pad.writeAll_untouched fun call hmem => ?_
  obtain ⟨location, hlocation, rfl⟩ := mem_draw_iff.mp hmem
  rw [cell?_cell hs, if_neg]
  -- A cell of some pixel lies in the picture after all.
  rintro ⟨hrow, hpixel⟩
  obtain ⟨hy, hx⟩ := place_onScreen hlocation
  have hline := (onLine_iff hs).mpr ⟨_, hx, hpixel⟩
  generalize location / displayWidth = y at hrow hy
  exact h ⟨by omega, by omega, hline⟩

/-- A title is written on its line, with spaces behind it. -/
theorem cell?_title {title : Text} (hfits : title.length < s.lineLength) (row column : Int) :
    (Call.write 0 0 (title ++ spaces (s.lineLength - title.length)) true).cell? row column =
      if row = 0 ∧ 0 ≤ column ∧ column < s.lineLength then
        some ⟨title[column.toNat]?.getD (.char ' '), true⟩
      else none := by
  rw [Call.cell?, spaces, List.getElem?_append, List.getElem?_replicate, Int.sub_zero]
  by_cases hline : row = 0 ∧ 0 ≤ column
  · rw [if_pos hline]
    by_cases htitle : column.toNat < title.length
    · rw [if_pos htitle, if_pos ⟨hline.1, hline.2, by omega⟩, List.getElem?_eq_getElem htitle]
      rfl
    · rw [if_neg htitle, List.getElem?_eq_none (Nat.le_of_not_lt htitle)]
      -- Behind the title stand as many spaces as there is room for.
      by_cases hlast : column < s.lineLength
      · rw [if_pos (by omega), if_pos ⟨hline.1, hline.2, hlast⟩]
        rfl
      · rw [if_neg (by omega), if_neg fun h => hlast h.2.2]
        rfl
  · rw [if_neg hline, if_neg fun h => hline ⟨h.1, h.2.1⟩]

/-- Bringing the screen up to date writes nothing on the pad. -/
theorem refresh_calls (s : Screen) (size : Int × Int) (canResize : Bool) {call : Call}
    (h : call ∈ (s.refresh size canResize).2) (row column : Int) (text : Text) (reverse : Bool) :
    call ≠ .write row column text reverse := by
  rintro rfl
  -- What brings the screen up to date are calls of other kinds.
  unfold refresh at h
  split at h
  · split at h <;> simp at h
  · cases canResize <;> simp at h

end Screen

/-! ## Requests one after the other -/

/-- A pad shows the last title and the last picture of the requests, and stays as it was
before wherever neither is to stand. -/
structure Shows (scale : Int) (requests : List Request) (before shown : Pad) : Prop where
  /-- The last title that is shorter than its line stands there in reverse, with spaces
  behind it. -/
  title : ∀ title, lastTitle? (displayWidth * scale) requests = some title →
    ∀ column, 0 ≤ column → column < displayWidth * scale →
      shown 0 column = ⟨title[column.toNat]?.getD (.char ' '), true⟩
  untitled : lastTitle? (displayWidth * scale) requests = none →
    ∀ column, shown 0 column = before 0 column
  /-- In the cells of a pixel stand spaces, in reverse if the pixel is lit. -/
  picture : ∀ frame, lastFrame? requests = some frame →
    ∀ y : Nat, y < displayHeight → ∀ column, 0 ≤ column → column < displayWidth * scale →
      ∃ byte, frame[y * displayWidth + (column / scale).toNat]? = some byte ∧
        shown (y + 1) column = ⟨.char ' ', byte != 0⟩
  undrawn : lastFrame? requests = none →
    ∀ y : Nat, ∀ column, shown (y + 1) column = before (y + 1) column
  elsewhere : ∀ row column : Int,
    ¬ (0 ≤ row ∧ row ≤ displayHeight ∧ 0 ≤ column ∧ column < displayWidth * scale) →
      shown row column = before row column

/-- If a call writes on the pad, it does so on its lines, and not behind their end. -/
def Call.Within (scale : Int) (call : Call) : Prop :=
  ∀ row column text reverse, call = .write row column text reverse →
    0 ≤ row ∧ row ≤ displayHeight ∧ 0 ≤ column ∧ column + text.length ≤ displayWidth * scale

variable {s : Screen} {requests : List Request} {before shown : Pad} {r : Request}

/-- A request that writes nothing on the pad. -/
theorem Shows.idle {scale : Int} (h : Shows scale requests before shown)
    (htitle : r.title? (displayWidth * scale) = none) (hframe : r.frame? = none) :
    Shows scale (requests ++ [r]) before shown := by
  have htitles : lastTitle? (displayWidth * scale) (requests ++ [r]) =
      lastTitle? (displayWidth * scale) requests := getLast?_of_not_asked htitle
  have hframes : lastFrame? (requests ++ [r]) = lastFrame? requests :=
    getLast?_of_not_asked hframe
  refine ⟨?_, ?_, ?_, ?_, h.elsewhere⟩
  · rw [htitles]
    exact h.title
  · rw [htitles]
    exact h.untitled
  · rw [hframes]
    exact h.picture
  · rw [hframes]
    exact h.undrawn

/-- A title that fits is written over the last one, and the picture stays. -/
theorem Shows.setTitle (h : Shows s.scale requests before shown) {title : Text}
    (hfits : title.length < s.lineLength) :
    Shows s.scale (requests ++ [.title title]) before
      (shown.write (.write 0 0 (title ++ Screen.spaces (s.lineLength - title.length)) true)) := by
  have htitles : lastTitle? (displayWidth * s.scale) (requests ++ [.title title]) = some title :=
    getLast?_of_asked (if_pos hfits)
  have hframes : lastFrame? (requests ++ [.title title]) = lastFrame? requests :=
    getLast?_of_not_asked rfl
  have hbelow (y : Nat) (column : Int) :
      ¬ ((y : Int) + 1 = 0 ∧ 0 ≤ column ∧ column < s.lineLength) := by omega
  refine ⟨?_, ?_, ?_, ?_, ?_⟩
  · -- On its own line stands the new title.
    intro last hlast column hfirst hend
    obtain rfl := Option.some.inj (htitles.symm.trans hlast)
    rw [Pad.write, Screen.cell?_title hfits, if_pos ⟨rfl, hfirst, hend⟩, Option.getD_some]
  · intro hnone
    rw [htitles] at hnone
    cases hnone
  · -- Below that nothing is written by it.
    intro frame hframe y hy column hfirst hend
    rw [Pad.write, Screen.cell?_title hfits, if_neg (hbelow y column), Option.getD_none]
    exact h.picture frame (hframes ▸ hframe) y hy column hfirst hend
  · intro hnone y column
    rw [Pad.write, Screen.cell?_title hfits, if_neg (hbelow y column), Option.getD_none]
    exact h.undrawn (hframes ▸ hnone) y column
  · intro row column houtside
    have hoff : ¬ (row = 0 ∧ 0 ≤ column ∧ column < s.lineLength) := by
      rintro ⟨rfl, hfirst, hend⟩
      exact houtside ⟨Int.le_refl 0, Int.natCast_nonneg _, hfirst, hend⟩
    rw [Pad.write, Screen.cell?_title hfits, if_neg hoff, Option.getD_none]
    exact h.elsewhere row column houtside

/-- A picture is written over the last one, and the title stays. -/
theorem Shows.draw (hs : 1 ≤ s.scale) (h : Shows s.scale requests before shown)
    (frame : Vector UInt8 2048) :
    Shows s.scale (requests ++ [.draw frame]) before
      (shown.writeAll (s.draw frame.toArray).2) := by
  have htitles : lastTitle? (displayWidth * s.scale) (requests ++ [.draw frame]) =
      lastTitle? (displayWidth * s.scale) requests := getLast?_of_not_asked rfl
  have hframes : lastFrame? (requests ++ [.draw frame]) = some frame := getLast?_of_asked rfl
  have hline (column : Int) :
      shown.writeAll (s.draw frame.toArray).2 0 column = shown 0 column :=
    Screen.writeAll_draw_outside hs frame shown fun h => absurd h.1 (by decide)
  refine ⟨?_, ?_, ?_, ?_, ?_⟩
  · -- The title stands above all pixels.
    intro title htitle column hfirst hend
    rw [hline]
    exact h.title title (htitles ▸ htitle) column hfirst hend
  · intro hnone column
    rw [hline]
    exact h.untitled (htitles ▸ hnone) column
  · -- In the picture stands the new one, and no earlier one.
    intro last hlast y hy column hfirst hend
    obtain rfl := Option.some.inj (hframes.symm.trans hlast)
    exact Screen.writeAll_draw hs frame shown hy ⟨hfirst, hend⟩
  · intro hnone
    rw [hframes] at hnone
    cases hnone
  · intro row column houtside
    rw [Screen.writeAll_draw_outside hs frame shown]
    · exact h.elsewhere row column houtside
    · rintro ⟨hrow, hlast, hcolumn⟩
      exact houtside ⟨by omega, hlast, hcolumn⟩

/-- Every request keeps the pad showing the last title and the last picture. -/
theorem Shows.answer (hs : 1 ≤ s.scale) (h : Shows s.scale requests before shown) (r : Request) :
    Shows s.scale (requests ++ [r]) before (shown.writeAll (s.answer r).2) := by
  cases r with
  | draw frame => exact h.draw hs frame
  | title title =>
    simp only [Screen.answer, Screen.setTitle]
    by_cases hfits : title.length < s.lineLength
    · rw [if_pos (by omega)]
      exact h.setTitle hfits
    · -- The title is not written, and it is none that counts.
      rw [if_neg (by omega)]
      exact h.idle (if_neg hfits) rfl
  | refresh size canResize =>
    -- A refresh writes in no cell, so the pad is the same.
    have hidle : shown.writeAll (s.refresh size canResize).2 = shown := by
      funext row column
      refine Pad.writeAll_untouched fun call hmem => ?_
      have hcall := Screen.refresh_calls s size canResize hmem
      cases call with
      | write textRow first text reverse => exact absurd rfl (hcall textRow first text reverse)
      | _ => rfl
    show Shows s.scale _ before (shown.writeAll (s.refresh size canResize).2)
    rw [hidle]
    exact h.idle rfl rfl

/-- No request writes beside the lines of the picture and of the title. -/
theorem Screen.answer_within (hs : 1 ≤ s.scale) (r : Request) :
    ∀ call ∈ (s.answer r).2, call.Within s.scale := by
  rintro call hmem row column text reverse rfl
  -- A call that writes comes from a title that fits, or from a pixel.
  cases r with
  | title title =>
    simp only [Screen.answer, Screen.setTitle] at hmem
    split at hmem
    · rename_i hfits
      cases List.mem_singleton.mp hmem
      refine ⟨Int.le_refl 0, Int.natCast_nonneg _, Int.le_refl 0, ?_⟩
      rw [List.length_append, spaces, List.length_replicate, ← lineLength]
      omega
    · cases hmem
  | draw frame =>
    obtain ⟨location, hlocation, hcell⟩ := mem_draw_iff.mp hmem
    cases hcell
    obtain ⟨hy, hx⟩ := place_onScreen hlocation
    obtain ⟨hfirst, hlast⟩ := run_within hs hx
    refine ⟨Int.natCast_nonneg _, Int.ofNat_le.mpr hy, hfirst, ?_⟩
    rw [spaces, List.length_replicate, ← lineLength]
    omega
  | refresh size canResize =>
    exact absurd rfl (refresh_calls s size canResize hmem row column text reverse)

/-! ## All requests -/

/-- A screen that is taken over makes a pad with room for the title and the picture, and for
one character more on each line. -/
theorem Screen.getLast?_start {scale cursorMode : Value} {refused : Bool} {opening : List Call}
    (h : Screen.start scale cursorMode refused = (opening, .ok s)) :
    opening.getLast? = some (.newPad (displayHeight + 1) (displayWidth * s.scale + 1)) := by
  unfold start at h
  split at h
  · cases h
  · split at h
    · cases h
    · cases h
      rfl

/-- Whatever was asked for, the pad shows the last title and the last picture. -/
theorem Shows.answerAll (hs : 1 ≤ s.scale) (requests : List Request) (pad : Pad) :
    Shows s.scale requests pad (pad.writeAll (s.answerAll requests).2) := by
  induction requests using List.reverseRecOn with
  | nil =>
    refine ⟨?_, fun _ _ => rfl, ?_, fun _ _ _ => rfl, fun _ _ _ => rfl⟩
    · rintro title ⟨⟩
    · rintro frame ⟨⟩
  | append_singleton requests r ih =>
    -- The request goes to a screen of the same scale.
    have hscale := s.answerAll_scale requests
    rw [← hscale] at ih hs
    have hnext := ih.answer hs r
    rw [hscale] at hnext
    rw [Screen.answerAll_concat, Pad.writeAll_append]
    exact hnext

/-- No request of a row writes beside the lines. -/
theorem Screen.answerAll_within (hs : 1 ≤ s.scale) (requests : List Request) :
    ∀ call ∈ (s.answerAll requests).2, call.Within s.scale := by
  induction requests using List.reverseRecOn with
  | nil => exact fun _ hmem => (List.not_mem_nil hmem).elim
  | append_singleton requests r ih =>
    have hscale := s.answerAll_scale requests
    have hnext := answer_within (hscale ▸ hs) r
    rw [hscale] at hnext
    rw [answerAll_concat]
    exact List.forall_mem_append.mpr ⟨ih, hnext⟩

/-- The pad of a terminal shows the last title and the last picture, at every scale from 1
on and whatever was asked for, in any order: of the titles the last that is shorter than
its line, of the pictures the last, and neither touches what the other wrote. No character
is written off the lines on which they stand, and the pad is made with room for these. -/
theorem pad_shows_the_last (s : Screen) (hs : 1 ≤ s.scale) (requests : List Request) (pad : Pad) :
    let calls := (s.answerAll requests).2
    Shows s.scale requests pad (pad.writeAll calls) ∧
      (∀ call ∈ calls, call.Within s.scale) ∧
      ∀ scale cursorMode refused opening,
        Screen.start scale cursorMode refused = (opening, .ok s) →
          opening.getLast? = some (.newPad (displayHeight + 1) (displayWidth * s.scale + 1)) :=
  ⟨.answerAll hs requests pad, Screen.answerAll_within hs requests,
    fun _ _ _ _ => Screen.getLast?_start⟩

/-- A screen on which a pixel is one character wide. -/
def narrow : Screen := ⟨1, .nothing, (-1, -1), false, 0, .nothing⟩

/-- A title is set, all pixels are lit, and a title is set that leaves no room on its line. -/
def litUp : List Request :=
  [.title "Up", .draw (Vector.replicate 2048 1), .title (Screen.spaces 64)]

/-- The pad as it was made. -/
def newPad : Pad := fun _ _ => ⟨.char ' ', false⟩

/-- The first title stays, and the last pixel is lit in the last row. -/
theorem litUp_shown :
    let shown := newPad.writeAll (narrow.answerAll litUp).2
    1 ≤ narrow.scale ∧ shown 0 1 = ⟨.char 'p', true⟩ ∧ shown 0 63 = ⟨.char ' ', true⟩ ∧
      shown 32 63 = ⟨.char ' ', true⟩ ∧ shown 32 64 = ⟨.char ' ', false⟩ := by
  have hscale : 1 ≤ narrow.scale := by decide
  obtain ⟨hshows, -, -⟩ := pad_shows_the_last narrow hscale litUp newPad
  have htitle : lastTitle? (displayWidth * narrow.scale) litUp = some "Up" := by decide
  -- The last row of pixels stands on the last line of the pad.
  obtain ⟨byte, hbyte, hpixel⟩ :=
    hshows.picture (Vector.replicate 2048 1) rfl 31 (by decide) 63 (by decide) (by decide)
  have hlit : byte = 1 := by
    rw [Vector.getElem?_replicate, if_pos (by decide)] at hbyte
    exact (Option.some.inj hbyte).symm
  rw [hlit] at hpixel
  exact ⟨hscale, hshows.title _ htitle 1 (by decide) (by decide),
    hshows.title _ htitle 63 (by decide) (by decide), hpixel,
    hshows.elsewhere 32 64 (by decide)⟩

end Chip8.Terminal
