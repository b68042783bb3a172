import Chip8.Proofs.History
import Chip8.Window.Screen

/-!
# Chip8.Proofs.Window.Presenting — a window presents the last picture

A window keeps the colours of all pixels in one buffer, which each picture is painted into
and from which an image is made when the window is refreshed. Here is what comes of any
number of pictures, captions and refreshes, in any order:

* `paint_eq` — painting goes through a picture pixel by pixel. Of a picture whose bytes are
  zero or one it leaves no pixel out, and it leaves all others as they were.
* `Presents` — the buffer has the colours of the last picture, the mark says whether a
  picture was drawn since the window was refreshed, and while none was, the last image is
  the buffer.
* `Presents.answer` is the step lemma about one request, `last_frame_is_presented` the result
  about any number of them.

A picture that was drawn and not refreshed is never seen, so the image is that of the last
picture and not of all of them. The background that a window opens with is presented as well.
-/

namespace Chip8.Window

open History (HasLast)

/-! ## Bytes -/

/-- The three bytes of a colour. -/
def Colour.bytes (c : Colour) : List UInt8 := [c.red, c.green, c.blue]

/-- The bytes of an image, pixel after pixel. -/
def imageBytes (pixels : Array Colour) : List UInt8 := pixels.toList.flatMap Colour.bytes

/-- An image has three bytes for each pixel. -/
theorem length_imageBytes (pixels : Array Colour) :
    (imageBytes pixels).length = 3 * pixels.size := by
  rw [imageBytes, ← Array.length_toList]
  generalize pixels.toList = colours
  induction colours with
  | nil => rfl
  | cons c rest ih =>
    rw [List.flatMap_cons, List.length_append, ih, List.length_cons]
    show 3 + 3 * rest.length = _
    omega

/-- Each pixel has its three bytes at three times its place. -/
theorem bytes_of_pixel {pixels : Array Colour} {p : Nat} {c : Colour} (h : pixels[p]? = some c) :
    ((imageBytes pixels).drop (3 * p)).take 3 = c.bytes := by
  rw [← Array.getElem?_toList] at h
  rw [imageBytes]
  generalize pixels.toList = colours at h
  -- Each pixel in front takes three bytes off and one place.
  induction colours generalizing p with
  | nil => cases h
  | cons first rest ih =>
    cases p with
    | zero =>
      cases h
      rfl
    | succ p => exact ih h

/-! ## Painting -/

/-- A picture to draw, in which each pixel is unlit or lit. -/
structure Frame where
  bytes : Vector UInt8 2048
  binary : ∀ byte ∈ bytes, byte = 0 ∨ byte = 1

/-- The colour that a pixel is painted in. -/
def Palette.colourOf (palette : Palette) (lit : Bool) : Colour :=
  if lit then palette.foreground else palette.background

theorem Palette.of?_eq {palette : Palette} {byte : UInt8} (h : byte = 0 ∨ byte = 1) :
    palette.of? byte = some (palette.colourOf (byte == 1)) := by
  rcases h with rfl | rfl
  · rfl
  · rfl

namespace Screen

variable {s : Screen}

/-- Bytes that are zero or one are painted one beside the other, as long as there is place
for them. -/
theorem paint_eq (palette : Palette) {pixels : Array Colour} {location : Nat} {row : List UInt8}
    (hbinary : ∀ byte ∈ row, byte = 0 ∨ byte = 1) (hplace : location + row.length ≤ pixels.size) :
    ∃ painted, paint palette pixels location row = (painted, none) ∧
      painted.size = pixels.size ∧
      (∀ k byte, row[k]? = some byte →
        painted[location + k]? = some (palette.colourOf (byte == 1))) ∧
      ∀ p < location, painted[p]? = pixels[p]? := by
  -- By induction on the row, which is painted one place further to the right each time.
  induction row generalizing pixels location with
  | nil =>
    refine ⟨pixels, rfl, rfl, ?_, fun _ _ => rfl⟩
    intro k byte hbyte
    cases hbyte
  | cons first rest ih =>
    obtain ⟨hfirst, hrest⟩ := List.forall_mem_cons.mp hbinary
    rw [List.length_cons] at hplace
    have hlocation : location < pixels.size := by omega
    have hsize : (pixels.set location (palette.colourOf (first == 1))).size = pixels.size :=
      Array.size_set hlocation
    have hplace' : location + 1 + rest.length ≤
        (pixels.set location (palette.colourOf (first == 1))).size := by omega
    obtain ⟨painted, hpaint, hpainted, hrow, hbefore⟩ := ih hrest hplace'
    refine ⟨painted, ?_, hpainted.trans hsize, ?_, ?_⟩
    · rw [paint, Palette.of?_eq hfirst]
      simp only [dif_pos hlocation]
      exact hpaint
    · -- The first byte of the row is at the place itself.
      rintro (_ | k) byte hbyte
      · -- The rest of the row is painted behind the first pixel.
        cases hbyte
        rw [Nat.add_zero, hbefore location (Nat.lt_succ_self location)]
        exact Array.getElem?_set_self hlocation
      · rw [Nat.add_comm k 1, ← Nat.add_assoc]
        exact hrow k byte hbyte
    · intro p hp
      rw [hbefore p (by omega)]
      exact Array.getElem?_set_ne hlocation (by omega)

/-- A picture is painted as a whole. -/
theorem draw_eq (hsize : s.pixels.size = 2048) (frame : Frame) :
    ∃ pixels : Array Colour, s.draw frame.bytes.toArray =
        ({ s with pixels := pixels, changed := true, frames := s.frames + 1 }, none) ∧
      pixels.size = 2048 ∧
      ∀ (p : Nat) (byte : UInt8), frame.bytes[p]? = some byte →
        pixels[p]? = some (s.palette.colourOf (byte == 1)) := by
  have hbinary : ∀ byte ∈ frame.bytes.toArray.toList, byte = 0 ∨ byte = 1 := by
    intro byte hmem
    exact frame.binary byte (Vector.mem_toList_iff.mp hmem)
  have hplace : 0 + frame.bytes.toArray.toList.length ≤ s.pixels.size := by
    simp [hsize]
  obtain ⟨pixels, hpaint, hpixels, hrow, -⟩ := paint_eq s.palette hbinary hplace
  refine ⟨pixels, ?_, hpixels.trans hsize, ?_⟩
  · simp only [draw, hpaint]
  · intro p byte hbyte
    have hcolour := hrow p byte (by simpa using hbyte)
    rwa [Nat.zero_add] at hcolour

end Screen

/-! ## Requests -/

/-- What a window is asked to do. -/
inductive Request where
  | draw (frame : Frame)
  | title (title : Value)
  | refresh

/-- The picture that is drawn. -/
def Request.frame? : Request → Option Frame
  | .draw frame => some frame
  | _ => none

/-- The last picture. -/
def lastFrame? (requests : List Request) : Option Frame :=
  (requests.filterMap Request.frame?).getLast?

/-- Whether a picture lights the pixel at a place. Before the first picture none is lit. -/
def lights (frame? : Option Frame) (p : Nat) : Bool :=
  frame?.any fun frame => frame.bytes[p]? == some 1

/-- A picture was drawn, and the window was not refreshed since. -/
def DrawnSince (requests : List Request) : Prop :=
  HasLast (fun r => ∃ frame, r = .draw frame) (fun later => later ≠ .refresh) requests

/-- The pixels of the image that is made. -/
def Call.pixels? : Call → Option (Array Colour)
  | .image _ _ pixels => some pixels
  | _ => none

/-- The pixels of the last image that was made. -/
def lastImage? (calls : List Call) : Option (Array Colour) :=
  (calls.filterMap Call.pixels?).getLast?

namespace Screen

variable {s : Screen} {requests : List Request} {calls : List Call}

/-- A window does what it is asked. -/
def answer (s : Screen) : Request → Screen × List Call
  | .draw frame => ((s.draw frame.bytes.toArray).1, [])
  | .title title => s.setTitle title
  | .refresh => s.refresh

/-- A window does one thing after the other. The calls of all of them are gathered. -/
def answerAll (s : Screen) (requests : List Request) : Screen × List Call :=
  requests.foldl (fun (s, calls) r => ((s.answer r).1, calls ++ (s.answer r).2)) (s, [])

theorem answerAll_concat (s : Screen) (requests : List Request) (r : Request) :
    s.answerAll (requests ++ [r]) =
      (((s.answerAll requests).1.answer r).1,
        (s.answerAll requests).2 ++ ((s.answerAll requests).1.answer r).2) := List.foldl_append

/-- The calls that present what is in the buffer. -/
def presentation (s : Screen) : List Call :=
  .image displayWidth displayHeight s.pixels :: List.replicate s.passes .smooth ++
    [.stretch s.scale s.scale.half, .put 0 0, .flip]

/-- A picture that was drawn is presented, and the mark is taken off. -/
theorem refresh_of_changed (h : s.changed = true) :
    s.refresh = ({ s with changed := false }, s.presentation) := by
  rw [refresh, if_pos h]
  rfl

theorem refresh_of_unchanged (h : s.changed = false) : s.refresh = (s, []) := by
  rw [refresh, if_neg (Bool.not_eq_true _ ▸ h)]

/-- A refresh leaves the buffer as it is, and nothing to present. -/
theorem refresh_leaves (s : Screen) :
    s.refresh.1.pixels = s.pixels ∧ s.refresh.1.changed = false := by
  cases hchanged : s.changed with
  | true =>
    rw [refresh_of_changed hchanged]
    exact ⟨rfl, rfl⟩
  | false =>
    rw [refresh_of_unchanged hchanged]
    exact ⟨rfl, hchanged⟩

/-- The image is the only one of a presentation. -/
theorem lastImage?_presentation (s : Screen) (calls : List Call) :
    lastImage? (calls ++ s.presentation) = some s.pixels := by
  have hpixels : s.presentation.filterMap Call.pixels? = [s.pixels] := by
    simp [presentation, Call.pixels?]
  rw [lastImage?, List.filterMap_append, hpixels, List.getLast?_concat]

end Screen

/-! ## One request -/

variable {s : Screen} {requests : List Request} {calls : List Call}

/-- The window has painted the last picture, and has presented it unless its mark is set. -/
structure Presents (s : Screen) (requests : List Request) (calls : List Call) : Prop where
  size : s.pixels.size = 2048
  pixels : ∀ p < 2048,
    s.pixels[p]? = some (s.palette.colourOf (lights (lastFrame? requests) p))
  changed : s.changed = true ↔ DrawnSince requests
  image : s.changed = false → lastImage? calls = some s.pixels

/-- A picture is painted over the last one and is not presented yet. -/
theorem Presents.draw (h : Presents s requests calls) (frame : Frame) :
    Presents (s.draw frame.bytes.toArray).1 (requests ++ [.draw frame]) (calls ++ []) := by
  obtain ⟨pixels, hdraw, hsize, hpixels⟩ := Screen.draw_eq h.size frame
  have hlast : lastFrame? (requests ++ [.draw frame]) = some frame := by
    rw [lastFrame?, History.getLast?_filterMap_concat]
    rfl
  rw [hdraw]
  refine ⟨hsize, ?_, ?_, ?_⟩
  · intro p hp
    -- A picture has a byte for each pixel.
    have hbyte : frame.bytes[p]? = some frame.bytes[p] := Vector.getElem?_eq_getElem hp
    have hlights : lights (some frame) p = (frame.bytes[p] == 1) := by
      rw [lights, Option.any_some, hbyte]
      rfl
    rw [hlast, hlights]
    exact hpixels p _ hbyte
  · exact iff_of_true rfl (History.hasLast_concat.mpr (.inl ⟨frame, rfl⟩))
  · intro hunchanged
    cases hunchanged

/-- A title changes nothing that is presented. -/
theorem Presents.setTitle (h : Presents s requests calls) (title : Value) :
    Presents (s.setTitle title).1 (requests ++ [.title title])
      (calls ++ (s.setTitle title).2) := by
  have hlast : lastFrame? (requests ++ [.title title]) = lastFrame? requests := by
    rw [lastFrame?, History.getLast?_filterMap_concat]
    rfl
  have hdrawn : DrawnSince (requests ++ [.title title]) ↔ DrawnSince requests := by
    rw [DrawnSince, History.hasLast_concat]
    constructor
    · rintro (⟨frame, hframe⟩ | ⟨-, hdrawn⟩)
      · cases hframe
      · exact hdrawn
    · intro hdrawn
      exact .inr ⟨Request.noConfusion, hdrawn⟩
  refine ⟨h.size, ?_, h.changed.trans hdrawn.symm, ?_⟩
  · rw [hlast]
    exact h.pixels
  · intro hunchanged
    -- A caption is no image.
    show lastImage? (calls ++ [.caption title]) = _
    rw [lastImage?, History.getLast?_filterMap_concat]
    exact h.image hunchanged

/-- A refresh presents what was drawn, or leaves the last image. -/
theorem Presents.refresh (h : Presents s requests calls) :
    Presents s.refresh.1 (requests ++ [.refresh]) (calls ++ s.refresh.2) := by
  have hlast : lastFrame? (requests ++ [.refresh]) = lastFrame? requests := by
    rw [lastFrame?, History.getLast?_filterMap_concat]
    rfl
  have hdrawn : ¬ DrawnSince (requests ++ [.refresh]) := by
    intro hdrawn
    rcases History.hasLast_concat.mp hdrawn with ⟨frame, hframe⟩ | ⟨hrefresh, -⟩
    · cases hframe
    · exact hrefresh rfl
  -- With the mark set the buffer is presented. Without it the last image was the buffer
  -- already.
  cases hchanged : s.changed with
  | true =>
    rw [Screen.refresh_of_changed hchanged]
    refine ⟨h.size, ?_, iff_of_false Bool.false_ne_true hdrawn, ?_⟩
    · rw [hlast]
      exact h.pixels
    · intro _
      exact s.lastImage?_presentation calls
  | false =>
    rw [Screen.refresh_of_unchanged hchanged, List.append_nil]
    refine ⟨h.size, ?_, iff_of_false (by simp [hchanged]) hdrawn, h.image⟩
    rw [hlast]
    exact h.pixels

/-- Once the window is refreshed, the last image is the buffer, in the colours of the last
picture. -/
theorem Presents.presented (h : Presents s requests calls) :
    ∃ image, lastImage? (calls ++ s.refresh.2) = some image ∧ s.refresh.1.pixels = image ∧
      (imageBytes image).length = 6144 ∧
      ∀ p < 2048, ((imageBytes image).drop (3 * p)).take 3 =
        (s.palette.colourOf (lights (lastFrame? requests) p)).bytes := by
  obtain ⟨hpixels, hunchanged⟩ := s.refresh_leaves
  have himage := h.refresh.image hunchanged
  rw [hpixels] at himage
  refine ⟨s.pixels, himage, hpixels, ?_, fun p hp => bytes_of_pixel (h.pixels p hp)⟩
  rw [length_imageBytes, h.size]

/-- Every request leaves the window with the last picture. -/
theorem Presents.answer (h : Presents s requests calls) (r : Request) :
    Presents (s.answer r).1 (requests ++ [r]) (calls ++ (s.answer r).2) := by
  cases r with
  | draw frame => exact h.draw frame
  | title title => exact h.setTitle title
  | refresh => exact h.refresh

/-- What a window was opened with: how wide it is, how often images are smoothed, and its
palette. -/
def Screen.opened (s : Screen) : Figure × Nat × Palette := (s.scale, s.passes, s.palette)

/-- No request changes what the window was opened with. -/
theorem Screen.opened_answer (s : Screen) (r : Request) : (s.answer r).1.opened = s.opened := by
  cases r with
  | draw frame =>
    simp only [answer, Screen.draw]
    split <;> rfl
  | title title => rfl
  | refresh =>
    simp only [answer, Screen.refresh]
    split <;> rfl

/-! ## All requests -/

theorem Screen.opened_answerAll (s : Screen) (requests : List Request) :
    (s.answerAll requests).1.opened = s.opened := by
  induction requests using List.reverseRecOn with
  | nil => rfl
  | append_singleton requests r ih => rw [answerAll_concat, opened_answer, ih]

/-- A window as it is once it was opened and has presented its background. -/
def Screen.fresh (width : Figure) (passes : Nat) (palette : Palette) : Screen :=
  { blank width passes palette with changed := false }

theorem Screen.start_of_ok {scale : Value} {palette : Setting Text} {width : Figure} {p : Palette}
    (hwidth : widthOf scale = .ok width) (hpalette : paletteOf palette = .ok p) (smoothing : Int) :
    Screen.start scale palette (.value smoothing) =
      (displayCalls ++ modeCalls width ++ (fresh width smoothing.toNat p).presentation,
        .ok (fresh width smoothing.toNat p)) := by
  rw [Screen.start, hwidth, hpalette]
  rfl

/-- A window that was opened has presented its background. -/
theorem Screen.start_eq_ok {scale : Value} {palette : Setting Text} {smoothing : Int}
    {opening : List Call} (h : Screen.start scale palette (.value smoothing) = (opening, .ok s)) :
    ∃ width p, widthOf scale = .ok width ∧ paletteOf palette = .ok p ∧
      s = fresh width smoothing.toNat p ∧
      opening = displayCalls ++ modeCalls width ++ s.presentation := by
  cases hwidth : widthOf scale with
  | error e =>
    rw [Screen.start, hwidth] at h
    cases h
  | ok width =>
    cases hpalette : paletteOf palette with
    | error e =>
      rw [Screen.start, hwidth, hpalette] at h
      cases h
    | ok p =>
      obtain ⟨hopening, hs⟩ := Prod.mk.inj ((start_of_ok hwidth hpalette smoothing).symm.trans h)
      cases hs
      exact ⟨width, p, rfl, rfl, rfl, hopening.symm⟩

/-- A window that was opened has presented the background, which is what an unlit picture
shows. -/
theorem Presents.fresh (width : Figure) (passes : Nat) (palette : Palette)
    (before : List Call) :
    Presents (Screen.fresh width passes palette) []
      (before ++ (Screen.fresh width passes palette).presentation) := by
  have hpixels : (Screen.fresh width passes palette).pixels =
      Array.replicate 2048 palette.background := rfl
  refine ⟨?_, ?_, ?_, fun _ => Screen.lastImage?_presentation _ before⟩
  · rw [hpixels, Array.size_replicate]
  · intro p hp
    rw [hpixels, Array.getElem?_replicate, if_pos hp]
    rfl
  · exact iff_of_false Bool.false_ne_true History.not_hasLast_nil

/-- Whatever was asked of it, the window has painted the last picture. -/
theorem Presents.answerAll (h : Presents s [] calls) (requests : List Request) :
    Presents (s.answerAll requests).1 requests (calls ++ (s.answerAll requests).2) := by
  -- The last request comes after all others, so by induction from the last.
  induction requests using List.reverseRecOn with
  | nil =>
    rw [show (s.answerAll []).2 = [] from rfl, List.append_nil]
    exact h
  | append_singleton requests r ih =>
    rw [Screen.answerAll_concat, ← List.append_assoc]
    exact ih.answer r

/-- A window presents the last picture, with every palette that it can be opened with, however
often images are smoothed, and whatever is asked of it once it was opened:

* opening the window ends with a presentation, and no picture fails to be drawn;
* once the window is refreshed, the image that was made last is what is in the buffer, and
  each of its 2048 pixels has, in three bytes, the foreground colour if the last picture
  lights the pixel, and else the background colour;
* a refresh makes no call if no picture was drawn since the one before it. Else it makes one
  image, smooths it as often as asked for, stretches it to the size of the window, puts it
  there and shows it. -/
theorem last_frame_is_presented {scale : Value} {palette : Setting Text} {smoothing : Int}
    {opening : List Call} (hstart : Screen.start scale palette (.value smoothing) = (opening, .ok s))
    (requests : List Request) :
    let t := (s.answerAll requests).1
    let calls := opening ++ (s.answerAll requests).2
    let present (pixels : Array Colour) : List Call :=
      .image 64 32 pixels :: List.replicate smoothing.toNat .smooth ++
        [.stretch s.scale s.scale.half, .put 0 0, .flip]
    Screen.paletteOf palette = .ok s.palette ∧
      (∃ before, opening = before ++ present s.pixels) ∧
      (∀ frame : Frame, (t.draw frame.bytes.toArray).2 = none) ∧
      (∃ image, lastImage? (calls ++ t.refresh.2) = some image ∧ t.refresh.1.pixels = image ∧
        (imageBytes image).length = 6144 ∧
        ∀ p < 2048, ((imageBytes image).drop (3 * p)).take 3 =
          (if lights (lastFrame? requests) p then s.palette.foreground
            else s.palette.background).bytes) ∧
      (¬ DrawnSince requests → t.refresh.2 = []) ∧
      (DrawnSince requests → t.refresh.2 = present t.pixels) := by
  intro t calls present
  obtain ⟨width, p, -, hpalette, hs, hopening⟩ := Screen.start_eq_ok hstart
  have hpasses : s.passes = smoothing.toNat := by
    rw [hs]
    rfl
  -- The window has been what it was opened as.
  have hopened : t.opened = s.opened := s.opened_answerAll requests
  obtain ⟨hscale, hrest⟩ := Prod.mk.inj hopened
  obtain ⟨hsmooth, hcolours⟩ := Prod.mk.inj hrest
  have hfresh : Presents s [] opening := by
    rw [hopening, hs]
    exact Presents.fresh width smoothing.toNat p _
  have hpresents : Presents t requests calls := hfresh.answerAll requests
  refine ⟨?_, ⟨Screen.displayCalls ++ Screen.modeCalls width, ?_⟩, ?_, ?_, ?_, ?_⟩
  · rw [hpalette, hs]
    rfl
  · rw [hopening, Screen.presentation, hpasses]
    rfl
  · intro frame
    obtain ⟨pixels, hdraw, -⟩ := Screen.draw_eq hpresents.size frame
    rw [hdraw]
  · -- The window has the palette that it was opened with.
    rw [← hcolours]
    exact hpresents.presented
  · intro hdrawn
    rw [← hpresents.changed, Bool.not_eq_true] at hdrawn
    rw [Screen.refresh_of_unchanged hdrawn]
  · intro hdrawn
    rw [Screen.refresh_of_changed (hpresents.changed.mpr hdrawn), Screen.presentation, hscale,
      hsmooth, hpasses]
    rfl

/-- A picture in which only the last pixel is lit. -/
def corner : Frame where
  bytes := Vector.ofFn fun p => if p.val = 2047 then 1 else 0
  binary := by
    intro byte hmem
    obtain ⟨p, rfl⟩ := Vector.mem_ofFn.mp hmem
    split
    · exact .inr rfl
    · exact .inl rfl

/-- A window with colours of its own, whose images are smoothed twice. -/
def coloured : Screen :=
  .fresh Screen.defaultScale 2 ⟨⟨0x10, 0x20, 0x30⟩, ⟨0x0A, 0x0B, 0x0C⟩⟩

/-- The last pixel is presented in the foreground colour and the first one in the background
colour. Refreshed again, the window makes no call. -/
theorem corner_is_presented :
    let opening := Screen.displayCalls ++ Screen.modeCalls Screen.defaultScale ++
      coloured.presentation
    let requests : List Request := [.draw corner, .title .nothing]
    let t := (coloured.answerAll requests).1
    let calls := opening ++ (coloured.answerAll requests).2
    Screen.start .nothing (.value ("102030,0a0B0c" : String)) (.value 2) =
        (opening, .ok coloured) ∧
      t.refresh.2.length = 6 ∧
      ∃ image, lastImage? (calls ++ t.refresh.2) = some image ∧
        ((imageBytes image).drop 6141).take 3 = [0x0A, 0x0B, 0x0C] ∧
        (imageBytes image).take 3 = [0x10, 0x20, 0x30] := by
  intro opening requests t calls
  have hpalette : Screen.paletteOf (.value ("102030,0a0B0c" : String)) =
      .ok ⟨⟨0x10, 0x20, 0x30⟩, ⟨0x0A, 0x0B, 0x0C⟩⟩ := by rfl
  have hstart : Screen.start .nothing (.value ("102030,0a0B0c" : String)) (.value 2) =
      (opening, .ok coloured) := Screen.start_of_ok rfl hpalette 2
  obtain ⟨-, -, -, ⟨image, himage, -, -, hpixels⟩, -, hpresented⟩ :=
    last_frame_is_presented hstart requests
  have hdrawn : DrawnSince requests :=
    ⟨[], .draw corner, [.title .nothing], rfl, ⟨corner, rfl⟩,
      List.forall_mem_singleton.mpr Request.noConfusion⟩
  have hframe : lastFrame? requests = some corner := rfl
  -- Only the last byte of this picture is one.
  have hbyte (p : Nat) (hp : p < 2048) :
      corner.bytes[p]? = some (if p = 2047 then 1 else 0) := by
    rw [corner, Vector.getElem?_ofFn, dif_pos hp]
  have hlit : lights (lastFrame? requests) 2047 = true := by
    rw [hframe, lights, Option.any_some, hbyte 2047 (by decide)]
    rfl
  have hunlit : lights (lastFrame? requests) 0 = false := by
    rw [hframe, lights, Option.any_some, hbyte 0 (by decide)]
    rfl
  have hlast := hpixels 2047 (by decide)
  have hfirst := hpixels 0 (by decide)
  rw [hlit] at hlast
  rw [hunlit] at hfirst
  refine ⟨hstart, ?_, image, himage, hlast, hfirst⟩
  rw [hpresented hdrawn]
  rfl

end Chip8.Window
