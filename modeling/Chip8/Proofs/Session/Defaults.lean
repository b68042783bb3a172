import Chip8.Proofs.Session.Stages

/-!
# Chip8.Proofs.Session.Defaults — options that are left open

An option that has its default may be set to nothing instead, and the session is to go
the same way. Each option is looked at in another place, so the two sessions are compared
stage by stage:

* `Lifecycle.Follows` — an action goes as another does, unless it fails in one of the ways
  that are listed. It is kept by what comes before and after, so that a lifecycle follows
  another whose stages it follows (`StagesFollow.perform`).
* `Lifecycle.Fails` — an action fails wherever it starts. A lifecycle fails if one of its
  stages does.
* `Options.leaving` — options with some of them left open. Two of the nine are never left
  to anyone else (`needs`): the key map, and in a window the smoothing.

`left_open_unless_needed` says that a session with defaults left open is the same session,
unless one of these two is among them, and that it then fails.
-/

namespace Chip8.Lifecycle

variable {ε σ α β Program Screen Sound Built Keys Paced : Type} {F : ε → Prop}

/-! ## One action beside another -/

/-- An action goes as `x` does, unless it fails in one of the listed ways. -/
def Follows (F : ε → Prop) (x y : ExceptT ε (StateM σ) α) : Prop :=
  ∀ s, y.run s = x.run s ∨ ∃ cause, F cause ∧ (y.run s).1 = .error cause

/-- An action fails wherever it starts, in one of the listed ways. -/
def Fails (F : ε → Prop) (x : ExceptT ε (StateM σ) α) : Prop :=
  ∀ s, ∃ cause, F cause ∧ (x.run s).1 = .error cause

section Actions

variable {x y : ExceptT ε (StateM σ) α} {f g : α → ExceptT ε (StateM σ) β}
  {close : ExceptT ε (StateM σ) Unit}

theorem Follows.refl (x : ExceptT ε (StateM σ) α) : Follows F x x := fun _ => .inl rfl

theorem Follows.of_eq (h : y = x) : Follows F x y := fun s => .inl (by rw [h])

theorem Fails.follows (h : Fails F y) : Follows F x y := fun s => .inr (h s)

/-- Where the first fails, the whole does in the same way. -/
theorem Fails.bind (h : Fails F x) : Fails F (x >>= f) := by
  intro s
  obtain ⟨cause, hcause, hx⟩ := h s
  refine ⟨cause, hcause, ?_⟩
  rw [run_bind]
  rcases hrun : x.run s with ⟨result, s'⟩
  rw [hrun] at hx
  cases hx
  rfl

theorem Fails.anyhow (h : Fails F x) : Fails (fun _ => True) x := by
  intro s
  obtain ⟨cause, -, hx⟩ := h s
  exact ⟨cause, trivial, hx⟩

/-- Where the second fails, the whole does, but maybe as the first did. -/
theorem Fails.bind_right (h : ∀ a, Fails (fun _ => True) (f a)) :
    Fails (fun _ => True) (x >>= f) := by
  intro s
  rw [run_bind]
  rcases x.run s with ⟨cause | a, s'⟩
  · exact ⟨cause, trivial, rfl⟩
  · obtain ⟨cause, -, hf⟩ := h a s'
    exact ⟨cause, trivial, hf⟩

/-- Closing a part does not undo a failure. -/
theorem Fails.tryFinally (h : Fails F x) (hclose : Quiet close) :
    Fails F (tryFinally x close) := by
  intro s
  rw [run_tryFinally_of_quiet hclose]
  exact h s

/-- An action in two parts follows another if its parts do. -/
theorem Follows.bind (hxy : Follows F x y) (hfg : ∀ a, Follows F (f a) (g a)) :
    Follows F (x >>= f) (y >>= g) := by
  intro s
  rw [run_bind, run_bind]
  -- What comes second starts where it would, or not at all.
  rcases hxy s with hsame | ⟨cause, hcause, hy⟩
  · rw [hsame]
    rcases x.run s with ⟨cause | a, s'⟩
    · exact .inl rfl
    · exact hfg a s'
  · rcases hrun : y.run s with ⟨result, s'⟩
    rw [hrun] at hy
    cases hy
    exact .inr ⟨cause, hcause, rfl⟩

/-- Following is kept when both close the same part in the end. -/
theorem Follows.tryFinally (hxy : Follows F x y) (hclose : Quiet close) :
    Follows F (tryFinally x close) (tryFinally y close) := by
  intro s
  rw [run_tryFinally_of_quiet hclose, run_tryFinally_of_quiet hclose]
  rcases hxy s with hsame | hfails
  · rw [hsame]
    exact .inl rfl
  · exact .inr hfails

end Actions

/-! ## One lifecycle beside another -/

variable {l l' : Lifecycle (ExceptT ε (StateM σ)) Program Screen Sound Built Keys Paced}

/-- Each stage of a lifecycle follows that of another, and the parts are closed alike. -/
structure StagesFollow (F : ε → Prop)
    (l l' : Lifecycle (ExceptT ε (StateM σ)) Program Screen Sound Built Keys Paced) : Prop where
  load : Follows F l.load l'.load
  openScreen : Follows F l.openScreen l'.openScreen
  openSound : Follows F l.openSound l'.openSound
  build : ∀ program, Follows F (l.build program) (l'.build program)
  openKeys : ∀ screen, Follows F (l.openKeys screen) (l'.openKeys screen)
  pace : ∀ screen sound built keys,
    Follows F (l.pace screen sound built keys) (l'.pace screen sound built keys)
  run : ∀ paced, Follows F (l.run paced) (l'.run paced)
  closeKeys : l'.closeKeys = l.closeKeys
  closeSound : l'.closeSound = l.closeSound
  closeScreen : l'.closeScreen = l.closeScreen

/-- A lifecycle follows another if its stages do. -/
theorem StagesFollow.perform (h : StagesFollow F l l') (hquiet : l.ClosesQuietly) :
    Follows F l.perform l'.perform := by
  unfold Lifecycle.perform
  rw [h.closeKeys, h.closeSound, h.closeScreen]
  -- Stage by stage; what was opened is closed in both in the same way.
  refine h.load.bind fun program => h.openScreen.bind fun screen => ?_
  refine .tryFinally ?_ (hquiet.screen screen)
  refine h.openSound.bind fun sound => ?_
  refine .tryFinally ?_ (hquiet.sound sound)
  refine (h.build program).bind fun built => (h.openKeys screen).bind fun keys => ?_
  refine .tryFinally ?_ (hquiet.keys keys)
  exact (h.pace screen sound built keys).bind h.run

theorem perform_fails_of_openScreen (h : Fails (fun _ => True) l.openScreen) :
    Fails (fun _ => True) l.perform :=
  .bind_right fun _ => h.bind

/-- A lifecycle whose keys are refused fails. -/
theorem perform_fails_of_openKeys (hquiet : l.ClosesQuietly)
    (h : ∀ screen, Fails (fun _ => True) (l.openKeys screen)) :
    Fails (fun _ => True) l.perform := by
  unfold Lifecycle.perform
  -- All that comes before the keys may fail in its own way, or succeed.
  refine .bind_right fun program => .bind_right fun screen => ?_
  refine .tryFinally ?_ (hquiet.screen screen)
  refine .bind_right fun sound => ?_
  refine .tryFinally ?_ (hquiet.sound sound)
  exact .bind_right fun built => (h screen).bind

end Chip8.Lifecycle

namespace Chip8

/-! ## Options that are left open -/

namespace Options

variable {τ : Type} (o : Options τ) (names : List OptionName)

/-- An option has its default: that of a run that is only told its program. For the clock
speed, and for the scale of a window or a terminal, there is also the number that it is
documented to stand for. The program, the front end and the wish to mute have none that
is looked at here. -/
def IsDefault (chosen : Option FrontEndKind) : OptionName → Prop
  | .clockSpeed =>
    o.clockSpeed = (default "" : Options τ).clockSpeed ∨ o.clockSpeed = .value (.whole 500)
  | .scale =>
    o.scale = (default "" : Options τ).scale ∨
      (chosen = some .window ∧ o.scale = .whole 640) ∨
      (chosen = some .terminal ∧ o.scale = .whole 2)
  | .smoothing => o.smoothing = (default "" : Options τ).smoothing
  | .keymap => o.keymap = (default "" : Options τ).keymap
  | .palette => o.palette = (default "" : Options τ).palette
  | .trace => o.trace = (default "" : Options τ).trace
  | .filename | .frontEnd | .mute => False

/-- The same options, but for some that are set to nothing. -/
def leaving : Options τ :=
  { o with
    clockSpeed := if .clockSpeed ∈ names then .unset else o.clockSpeed
    scale := if .scale ∈ names then .nothing else o.scale
    smoothing := if .smoothing ∈ names then .unset else o.smoothing
    keymap := if .keymap ∈ names then .unset else o.keymap
    palette := if .palette ∈ names then .unset else o.palette
    trace := if .trace ∈ names then .unset else o.trace }

variable {o names} {chosen : Option FrontEndKind}

/-- A clock speed with its default is kept, or stands for the one that is documented. -/
theorem clockSpeed_leaving (hdefault : ∀ name ∈ names, o.IsDefault chosen name) :
    (o.leaving names).clockSpeed = o.clockSpeed ∨
      (o.leaving names).clockSpeed = .unset ∧ o.clockSpeed = .value (.whole 500) := by
  -- An option that is not listed is kept as it was given.
  by_cases h : OptionName.clockSpeed ∈ names
  · have hleft : (o.leaving names).clockSpeed = .unset := if_pos h
    rcases hdefault _ h with hunset | hdocumented
    · exact .inl (hleft.trans hunset.symm)
    · exact .inr ⟨hleft, hdocumented⟩
  · exact .inl (if_neg h)

/-- A scale with its default is kept, or stands for the one that is documented for the front
end. -/
theorem scale_leaving (hdefault : ∀ name ∈ names, o.IsDefault chosen name) :
    (o.leaving names).scale = o.scale ∨
      (o.leaving names).scale = .nothing ∧
        ((chosen = some .window ∧ o.scale = .whole 640) ∨
          (chosen = some .terminal ∧ o.scale = .whole 2)) := by
  by_cases h : OptionName.scale ∈ names
  · have hleft : (o.leaving names).scale = .nothing := if_pos h
    rcases hdefault _ h with hnothing | hdocumented
    · exact .inl (hleft.trans hnothing.symm)
    · exact .inr ⟨hleft, hdocumented⟩
  · exact .inl (if_neg h)

/-- A palette with its default is kept. -/
theorem palette_leaving (hdefault : ∀ name ∈ names, o.IsDefault chosen name) :
    (o.leaving names).palette = o.palette := by
  by_cases h : OptionName.palette ∈ names
  · have hunset : o.palette = .unset := hdefault _ h
    exact (if_pos h).trans hunset.symm
  · exact if_neg h

/-- Whether there is a trace is kept. -/
theorem trace_leaving (hdefault : ∀ name ∈ names, o.IsDefault chosen name) :
    (o.leaving names).trace.value?.getD false = o.trace.value?.getD false := by
  by_cases h : OptionName.trace ∈ names
  · have hleft : (o.leaving names).trace = .unset := if_pos h
    have hquiet : o.trace = .value false := hdefault _ h
    rw [hleft, hquiet]
    rfl
  · have hleft : (o.leaving names).trace = o.trace := if_neg h
    rw [hleft]

end Options

namespace Session

open Lifecycle

variable {τ : Type}

/-- The front end that a session goes on, if there is one. -/
def chosen (o : Options τ) (around : Surroundings τ) : Option FrontEndKind :=
  match chooseFrontEnd o.frontEnd around.hasWindows around.hasTerminal with
  | .ok kind => kind
  | .error _ => none

/-- Whether a front end needs an option to be set. -/
def needs (chosen : Option FrontEndKind) : OptionName → Bool
  | .keymap => true
  | .smoothing => chosen = some .window
  | _ => false

/-- How an option is refused that is set to nothing although it is needed. -/
def refusal : OptionName → Failure
  | .smoothing => .window (.option ⟨.smoothing, .nothing⟩)
  | name => .wrongKind ⟨name, .nothing⟩

/-- One of the listed options is refused, and it was needed. -/
def Refused (chosen : Option FrontEndKind) (names : List OptionName) (failure : Failure) : Prop :=
  ∃ name ∈ names, needs chosen name ∧ failure = refusal name

/-! ## The stages of a session with options left open -/

variable {o : Options τ} {names : List OptionName} {front : Option FrontEndKind}

/-- A key map that is left open is refused. -/
theorem keyMap_leaving_fails (front : Option FrontEndKind) (h : .keymap ∈ names)
    (folding : Bool) :
    Fails (Refused front names) ((⟨o.leaving names, []⟩ : Request τ).keyMap folding) := by
  intro w
  refine ⟨refusal .keymap, ⟨.keymap, h, rfl, rfl⟩, ?_⟩
  have hleft : (o.leaving names).keymap = .unset := if_pos h
  unfold Request.keyMap
  rw [hleft]
  rfl

/-- A key map is read as before, or refused since it is left open. -/
theorem keyMap_leaving_follows (folding : Bool) :
    Follows (Refused front names) ((⟨o, []⟩ : Request τ).keyMap folding)
      ((⟨o.leaving names, []⟩ : Request τ).keyMap folding) := by
  by_cases h : OptionName.keymap ∈ names
  · exact (keyMap_leaving_fails front h folding).follows
  · have hleft : (o.leaving names).keymap = o.keymap := if_neg h
    refine .of_eq ?_
    unfold Request.keyMap
    rw [hleft]
    rfl

/-- The width that is documented for a window is the one that it has by itself. -/
theorem widthOf_leaving (hdefault : ∀ name ∈ names, o.IsDefault (some .window) name) :
    Window.Screen.widthOf (o.leaving names).scale = Window.Screen.widthOf o.scale := by
  rcases Options.scale_leaving hdefault with hsame | ⟨hleft, ⟨-, hscale⟩ | ⟨hchosen, -⟩⟩
  · rw [hsame]
  · rw [hleft, hscale]
    rfl
  · cases hchosen

/-- The scale that is documented for a terminal is the one that it has by itself. -/
theorem scaleOf_leaving (hdefault : ∀ name ∈ names, o.IsDefault (some .terminal) name) :
    Terminal.Screen.scaleOf (o.leaving names).scale = Terminal.Screen.scaleOf o.scale := by
  rcases Options.scale_leaving hdefault with hsame | ⟨hleft, ⟨hchosen, -⟩ | ⟨-, hscale⟩⟩
  · rw [hsame]
  · cases hchosen
  · rw [hleft, hscale]
    rfl

/-- Without a front end no scale is documented, so it is kept. -/
theorem headless_scale_leaving (hdefault : ∀ name ∈ names, o.IsDefault (some .headless) name) :
    (o.leaving names).scale = o.scale := by
  rcases Options.scale_leaving hdefault with hsame | ⟨-, ⟨hchosen, -⟩ | ⟨hchosen, -⟩⟩
  · exact hsame
  · cases hchosen
  · cases hchosen

/-- What the opening of a window does, and how it ends. -/
theorem window_openScreen_run (o : Options τ) (w : World τ) :
    (Window.openScreen ⟨o, []⟩).run w =
      let (calls, result) := Window.Screen.start o.scale o.palette o.smoothing
      (result.mapError Failure.window, w.callWindow calls) := by
  unfold Window.openScreen
  rcases Window.Screen.start o.scale o.palette o.smoothing with ⟨calls, cause | screen⟩ <;> rfl

/-- A window whose smoothing is left open is made as any other, until an image is to be
smoothed; that is refused. -/
theorem start_of_smoothing_unset (scale : Value) (palette : Setting Text)
    (smoothing : Setting Int) :
    ∃ cause, (Window.Screen.start scale palette .unset).2 = .error cause ∧
      (Window.Screen.start scale palette .unset = Window.Screen.start scale palette smoothing ∨
        cause = .option ⟨.smoothing, .nothing⟩) := by
  unfold Window.Screen.start
  -- The width and the palette are looked at first, and may be refused first.
  rcases Window.Screen.widthOf scale with cause | width
  · exact ⟨cause, rfl, .inl rfl⟩
  · rcases Window.Screen.paletteOf palette with cause | palette
    · exact ⟨cause, rfl, .inl rfl⟩
    · exact ⟨_, rfl, .inr rfl⟩

/-- The scale and the palette of a window may be left open. -/
theorem window_start_leaving (hdefault : ∀ name ∈ names, o.IsDefault (some .window) name)
    (smoothing : Setting Int) :
    Window.Screen.start (o.leaving names).scale (o.leaving names).palette smoothing =
      Window.Screen.start o.scale o.palette smoothing := by
  unfold Window.Screen.start
  rw [widthOf_leaving hdefault, Options.palette_leaving hdefault]

/-- A window is opened as before, unless its smoothing is left open and refused. -/
theorem window_openScreen_leaving_follows
    (hdefault : ∀ name ∈ names, o.IsDefault (some .window) name) :
    Follows (Refused (some .window) names) (Window.openScreen (⟨o, []⟩ : Request τ))
      (Window.openScreen ⟨o.leaving names, []⟩) := by
  intro w
  rw [window_openScreen_run, window_openScreen_run, window_start_leaving hdefault]
  by_cases h : OptionName.smoothing ∈ names
  · have hleft : (o.leaving names).smoothing = .unset := if_pos h
    -- A smoothing that is left open is refused, but only after the width and the palette.
    rw [hleft]
    obtain ⟨cause, hcause, hsame | rfl⟩ :=
      start_of_smoothing_unset o.scale o.palette o.smoothing
    · exact .inl (by rw [hsame])
    · refine .inr ⟨refusal .smoothing, ⟨.smoothing, h, rfl, rfl⟩, ?_⟩
      dsimp only
      rw [hcause]
      rfl
  · have hleft : (o.leaving names).smoothing = o.smoothing := if_neg h
    exact .inl (by rw [hleft])

/-- A window whose smoothing is left open is not opened. -/
theorem window_openScreen_leaving_fails (h : .smoothing ∈ names) :
    Fails (fun _ => True) (Window.openScreen (⟨o.leaving names, []⟩ : Request τ)) := by
  intro w
  have hleft : (o.leaving names).smoothing = .unset := if_pos h
  obtain ⟨cause, hcause, -⟩ :=
    start_of_smoothing_unset (o.leaving names).scale (o.leaving names).palette .unset
  refine ⟨.window cause, trivial, ?_⟩
  rw [window_openScreen_run]
  dsimp only
  rw [hleft, hcause]
  rfl

/-- A rate that is left open is the documented one, and what is not wished for is not traced. -/
theorem pace_leaving [Time τ] {Screen Sound Keys : Type}
    (hdefault : ∀ name ∈ names, o.IsDefault front name)
    (H : Host (Live Screen Sound Keys τ)) (screen : Screen) (sound : Sound) (machine : Machine)
    (keys : Keys) :
    pace ⟨o.leaving names, []⟩ H screen sound machine keys =
      pace ⟨o, []⟩ H screen sound machine keys := by
  unfold pace
  rw [Options.trace_leaving hdefault]
  -- The rate may be left open in place of the documented one.
  rcases Options.clockSpeed_leaving hdefault with hsame | ⟨hleft, hrate⟩
  · rw [hsame]
    rfl
  · rw [hleft, hrate]
    rfl

/-! ## A session with options left open -/

variable [Time τ]

/-- Without a front end each stage goes as before, but for a key map that is left open. -/
theorem headless_stagesFollow (hdefault : ∀ name ∈ names, o.IsDefault (some .headless) name) :
    StagesFollow (Refused (some .headless) names) (Headless.lifecycle (⟨o, []⟩ : Request τ))
      (Headless.lifecycle ⟨o.leaving names, []⟩) where
  load := .refl _
  openScreen := by
    refine .of_eq ?_
    unfold Headless.lifecycle
    rw [headless_scale_leaving hdefault]
    rfl
  openSound := .refl _
  build _ := .refl _
  openKeys _ := (keyMap_leaving_follows false).bind fun _ => .refl _
  pace _ _ _ _ := .of_eq (pace_leaving hdefault _ _ _ _ _)
  run _ := .refl _
  closeKeys := rfl
  closeSound := rfl
  closeScreen := rfl

/-- In a window each stage goes as before, but for the smoothing and the key map. -/
theorem window_stagesFollow (hdefault : ∀ name ∈ names, o.IsDefault (some .window) name) :
    StagesFollow (Refused (some .window) names) (Window.lifecycle (⟨o, []⟩ : Request τ))
      (Window.lifecycle ⟨o.leaving names, []⟩) where
  load := .refl _
  openScreen := window_openScreen_leaving_follows hdefault
  openSound := .refl _
  build _ := .refl _
  openKeys _ := (keyMap_leaving_follows false).bind fun _ => .refl _
  pace _ _ _ _ := .of_eq (pace_leaving hdefault _ _ _ _ _)
  run _ := .refl _
  closeKeys := rfl
  closeSound := rfl
  closeScreen := rfl

/-- On a terminal each stage goes as before, but for a key map that is left open. -/
theorem terminal_stagesFollow (hdefault : ∀ name ∈ names, o.IsDefault (some .terminal) name) :
    StagesFollow (Refused (some .terminal) names) (Terminal.lifecycle (⟨o, []⟩ : Request τ))
      (Terminal.lifecycle ⟨o.leaving names, []⟩) where
  load := .refl _
  openScreen := by
    refine .of_eq ?_
    show Terminal.openScreen _ = Terminal.openScreen _
    -- The scale is the only option of a terminal that may be left open.
    unfold Terminal.openScreen Terminal.Screen.start
    rw [scaleOf_leaving hdefault]
    rfl
  openSound := .refl _
  build _ := .refl _
  openKeys _ := (keyMap_leaving_follows true).bind fun _ => .refl _
  pace _ _ _ _ := .of_eq (pace_leaving hdefault _ _ _ _ _)
  run _ := .refl _
  closeKeys := rfl
  closeSound := rfl
  closeScreen := rfl

/-- A session with defaults left open follows the session without, on whatever front end. -/
theorem performOn_leaving_follows (hdefault : ∀ name ∈ names, o.IsDefault front name) :
    Follows (Refused front names) (performOn (⟨o, []⟩ : Request τ) front)
      (performOn ⟨o.leaving names, []⟩ front) := by
  cases front with
  | none => exact .refl _
  | some kind =>
    have hquiet := staging_closesQuietly (⟨o, []⟩ : Request τ) kind
    cases kind with
    | window => exact (window_stagesFollow hdefault).perform hquiet
    | terminal => exact (terminal_stagesFollow hdefault).perform hquiet
    | headless => exact (headless_stagesFollow hdefault).perform hquiet

/-- A session in which a needed option is left open fails, if not for another reason. -/
theorem performOn_leaving_fails {name : OptionName} (hname : name ∈ names)
    (hneeded : needs front name) :
    Fails (fun _ => True) (performOn (⟨o.leaving names, []⟩ : Request τ) front) := by
  cases front with
  | none => exact .bind_right fun _ _ => ⟨.unknownFrontEnd, trivial, rfl⟩
  | some kind =>
    have hquiet := staging_closesQuietly (⟨o.leaving names, []⟩ : Request τ) kind
    have hkeys (h : .keymap ∈ names) (folding : Bool) :
        Fails (fun _ => True) ((⟨o.leaving names, []⟩ : Request τ).keyMap folding) :=
      (keyMap_leaving_fails (some kind) h folding).anyhow
    cases name with
    | keymap =>
      -- The keys are opened late, so that another stage may have failed before.
      cases kind with
      | window => exact perform_fails_of_openKeys hquiet fun _ => (hkeys hname false).bind
      | terminal => exact perform_fails_of_openKeys hquiet fun _ => (hkeys hname true).bind
      | headless => exact perform_fails_of_openKeys hquiet fun _ => (hkeys hname false).bind
    | smoothing =>
      obtain rfl : kind = .window := by simpa [needs] using hneeded
      exact perform_fails_of_openScreen (window_openScreen_leaving_fails hname)
    | filename | clockSpeed | frontEnd | scale | mute | palette | trace => cases hneeded

/-- A session that has all options is greeted, and goes on the front end that is chosen. -/
theorem session_run (o : Options τ) (around : Surroundings τ) :
    (session ⟨o, []⟩).run (World.start around) =
      match chooseFrontEnd o.frontEnd around.hasWindows around.hasTerminal with
      | .ok front => (performOn ⟨o, []⟩ front).run ((World.start around).say Banner.greeting)
      | .error cause => (.error cause, (World.start around).say Banner.greeting) := by
  have haround : (World.start around).around = around := rfl
  rw [session, run_bind, enter_run rfl, haround]
  dsimp only
  cases chooseFrontEnd o.frontEnd around.hasWindows around.hasTerminal <;> rfl

/-- A session with defaults left open is the same session, unless it fails since one is needed.
-/
theorem session_leaving_follows {around : Surroundings τ}
    (hdefault : ∀ name ∈ names, o.IsDefault (chosen o around) name) :
    (session ⟨o.leaving names, []⟩).run (World.start around) =
        (session ⟨o, []⟩).run (World.start around) ∨
      ∃ failure, Refused (chosen o around) names failure ∧
        ((session ⟨o.leaving names, []⟩).run (World.start around)).1 = .error failure := by
  have hfront : (o.leaving names).frontEnd = o.frontEnd := rfl
  unfold chosen at hdefault ⊢
  rw [session_run, session_run, hfront]
  -- The front end is chosen before any of these options is looked at.
  cases hchoice : chooseFrontEnd o.frontEnd around.hasWindows around.hasTerminal with
  | error cause => exact .inl rfl
  | ok front =>
    rw [hchoice] at hdefault
    exact performOn_leaving_follows hdefault _

/-- A session fails in which a needed option is left open. -/
theorem session_leaving_fails {around : Surroundings τ} {name : OptionName} (hname : name ∈ names)
    (hneeded : needs (chosen o around) name) :
    ∃ failure, ((session ⟨o.leaving names, []⟩).run (World.start around)).1 = .error failure := by
  have hfront : (o.leaving names).frontEnd = o.frontEnd := rfl
  unfold chosen at hneeded
  rw [session_run, hfront]
  cases hchoice : chooseFrontEnd o.frontEnd around.hasWindows around.hasTerminal with
  | error cause => exact ⟨cause, rfl⟩
  | ok front =>
    rw [hchoice] at hneeded
    obtain ⟨failure, -, hfails⟩ := performOn_leaving_fails (o := o) hname hneeded
      ((World.start around).say Banner.greeting)
    exact ⟨failure, hfails⟩

/-- Runs that are the same play the same. -/
theorem play_eq_of_run {r r' : Request τ} {around : Surroundings τ}
    (h : (session r').run (World.start around) = (session r).run (World.start around)) :
    play r' around = play r around := by
  unfold play
  rw [h]

/-- A run that fails is a play that fails in the same way. -/
theorem failure_of_run {r : Request τ} {around : Surroundings τ} {failure : Failure}
    (h : ((session r).run (World.start around)).1 = .error failure) :
    (play r around).failure = some failure := by
  unfold play
  rcases hrun : (session r).run (World.start around) with ⟨result, w⟩
  rw [hrun] at h
  cases h
  rfl

/-- Options that have their defaults may be left open: whatever the options, those of any
command line among them, and whatever the surroundings, the session makes the same calls,
prints the same lines and ends alike. What is needed cannot be left open, though it has a
default: the key map on every front end, and the smoothing in a window. Then the session
fails, because one of these is refused, or because of what made it fail anyway. -/
theorem left_open_unless_needed (o : Options τ) (around : Surroundings τ)
    (names : List OptionName)
    (hdefault : ∀ name ∈ names, o.IsDefault (chosen o around) name) :
    let given := play ⟨o, []⟩ around
    let left := play ⟨o.leaving names, []⟩ around
    ((∀ name ∈ names, ¬needs (chosen o around) name) → left = given) ∧
    ((∃ name ∈ names, needs (chosen o around) name) →
      left.failure ≠ none ∧
      (left = given ∨
        ∃ failure, Refused (chosen o around) names failure ∧ left.failure = some failure)) := by
  intro given left
  have hfollows : left = given ∨
      ∃ failure, Refused (chosen o around) names failure ∧ left.failure = some failure := by
    rcases session_leaving_follows hdefault with hsame | ⟨failure, hrefused, hrun⟩
    · exact .inl (play_eq_of_run hsame)
    · exact .inr ⟨failure, hrefused, failure_of_run hrun⟩
  refine ⟨fun hfree => ?_, fun ⟨name, hname, hneeded⟩ => ⟨?_, hfollows⟩⟩
  · rcases hfollows with hsame | ⟨failure, ⟨name, hname, hneeded, -⟩, -⟩
    · exact hsame
    · -- Nothing that is needed is left open, so nothing is refused.
      exact absurd hneeded (hfree name hname)
  · -- That something needed is left open excludes a session without a failure.
    obtain ⟨failure, hrun⟩ := session_leaving_fails hname hneeded
    have hfailure : left.failure = some failure := failure_of_run hrun
    rw [hfailure]
    exact Option.some_ne_none failure

/-- Surroundings with a window system, in which the user quits at once. -/
def Surroundings.quitting : Surroundings Rat :=
  { Surroundings.bare with
    read := fun _ => .ok #[]
    hasWindows := true
    events := [[.quit]]
    readings := [0] }

/-- Options for a window that name what is documented. -/
def spelledOut : Options Rat :=
  { (Options.default "prog" : Options Rat) with
    frontEnd := .value .window
    clockSpeed := .value (.whole 500)
    scale := .whole 640 }

/-- What is documented for a window may be left open, and the session goes the same way. With
the smoothing left open as well, it fails. -/
theorem spelledOut_left_open :
    let names := [OptionName.clockSpeed, .scale, .palette, .trace]
    (∀ name ∈ .smoothing :: names, spelledOut.IsDefault (chosen spelledOut .quitting) name) ∧
    (spelledOut.leaving names).clockSpeed = .unset ∧
    play ⟨spelledOut.leaving names, []⟩ .quitting = play ⟨spelledOut, []⟩ .quitting ∧
    (play ⟨spelledOut.leaving (.smoothing :: names), []⟩ .quitting).failure ≠ none := by
  intro names
  have hdefault : ∀ name ∈ .smoothing :: names,
      spelledOut.IsDefault (chosen spelledOut .quitting) name := by
    intro name hname
    simp only [names, List.mem_cons, List.not_mem_nil, or_false] at hname
    rcases hname with rfl | rfl | rfl | rfl | rfl
    · rfl
    · exact .inr rfl
    · exact .inr (.inl ⟨rfl, rfl⟩)
    · rfl
    · rfl
  refine ⟨hdefault, rfl, ?_, ?_⟩
  · have hnames := (List.forall_mem_cons.mp hdefault).2
    exact (left_open_unless_needed spelledOut .quitting names hnames).1 (by decide)
  · exact ((left_open_unless_needed spelledOut .quitting _ hdefault).2 (by decide)).1

/-- The key map and the smoothing have their defaults, and the session ends well. With
either left open, it fails. -/
theorem needed_defaults_cannot_be_left_open :
    let o : Options Rat := .default "prog"
    o.IsDefault (chosen o .quitting) .keymap ∧ o.IsDefault (chosen o .quitting) .smoothing ∧
    (play ⟨o, []⟩ .quitting).failure = none ∧
    (play ⟨o.leaving [.keymap], []⟩ .quitting).failure =
      some (.wrongKind ⟨.keymap, .nothing⟩) ∧
    (play ⟨o.leaving [.smoothing], []⟩ .quitting).failure =
      some (.window (.option ⟨.smoothing, .nothing⟩)) := by
  refine ⟨rfl, rfl, ?_⟩
  decide +kernel

end Session

end Chip8
