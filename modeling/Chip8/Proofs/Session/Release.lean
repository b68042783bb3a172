import Chip8.Proofs.Pacer.Chronicle
import Chip8.Proofs.Session.Stages

/-!
# Chip8.Proofs.Session.Release — what a session takes over and gives back

A session takes over a terminal, or a display and a mixer, and it is to give them back
before it ends. `held` counts how often a system was taken over and not given back. Each
part of a session says what it does to this count:

* `Host.Keeps` — the services of a host, and so all deeds of a run, leave it as it is.
* `Session.Takes` — opening a part takes a system over if it succeeds; if it fails, the
  failure tells which one it leaves behind (`Failure.keeps?`).
* `Session.GivesBack` — closing the part gives the system back.
* `Session.Settled` — a whole lifecycle adds only what its failure leaves behind.

`released_unless_refused` says this of every session: what was taken over is given back,
however the session ends, unless the screen was refused while it was being opened.
`refused_screen_is_kept` shows that such a screen is kept.

Of the calls on the host only the hiding of a cursor may be refused (see `Surroundings`). A
scale or a palette is refused by the screen itself. A cursor that is refused when a terminal is
closed is passed over there, and the terminal is left all the same.
-/

namespace Chip8

/-! ## Systems of the host -/

/-- What a session takes over, and is to give back. -/
inductive System where
  | terminal | display | mixer
deriving DecidableEq, Repr

namespace System

/-- Whether a call takes a system over. -/
def taking : System → Session.HostCall → Bool
  | terminal, .terminal .enter => true
  | display, .window .openDisplay => true
  | mixer, .window .openMixer => true
  | _, _ => false

/-- Whether a call gives a system back. -/
def giving : System → Session.HostCall → Bool
  | terminal, .terminal .leave => true
  | display, .window .closeDisplay => true
  | mixer, .window .closeMixer => true
  | _, _ => false

/-- How often a system is taken over. -/
def taken (system : System) (calls : Array Session.HostCall) : Nat := calls.countP system.taking

/-- How often a system is given back. -/
def given (system : System) (calls : Array Session.HostCall) : Nat := calls.countP system.giving

end System

/-- The system that a failure leaves behind: that of a screen which was refused after the
system had been taken over for it. -/
def Failure.keeps? : Failure → Option System
  | .window _ => some .display
  | .terminal .cursorRefused => some .terminal
  | _ => none

/-! ## Runs on a host -/

section Keeping

variable {τ σ γ : Type} {H : Host σ} {p q : Pacer τ σ}

/-- The services of a host leave something about its state as it is. -/
structure Host.Keeps (H : Host σ) (f : σ → γ) : Prop where
  pump : ∀ s, f (H.pump s).1 = f s
  keys : ∀ s, f (H.keys s).1 = f s
  report : ∀ s r, f (H.report s r) = f s
  draw : ∀ s picture, f (H.draw s picture) = f s
  refresh : ∀ s, f (H.refresh s) = f s
  beep : ∀ s, f (H.beep s) = f s
  print : ∀ s line, f (H.print s line) = f s

namespace Pacer

variable {f : σ → γ}

/-- An update is one pump, one picture at most and one refresh, all of them services. -/
theorem updated_keeps (hf : H.Keeps f) (p : Pacer τ σ) (next : τ) :
    f (p.updated H next).host = f p.host := by
  -- The split is on whether the picture is due.
  unfold updated refresh handOver
  split
  · exact (hf.refresh _).trans ((hf.draw _ _).trans (hf.pump _))
  · exact (hf.refresh _).trans (hf.pump _)

/-- A line is printed only in a live run. -/
theorem printLine_keeps (hf : H.Keeps f) (p : Pacer τ σ) : f (p.printLine H).host = f p.host := by
  unfold printLine
  split
  · exact hf.print _ _
  · rfl

/-- A step asks its host for a beep or for nothing. -/
theorem step_keeps (hf : H.Keeps f) (p : Pacer τ σ) : f (p.step H).1.host = f p.host := by
  unfold step
  dsimp only
  split
  · exact hf.beep _
  · rfl

/-- A cycle is a reading of the keys, a line and a step. -/
theorem cycle_keeps (hf : H.Keeps f) (p : Pacer τ σ) : f (p.cycle H).1.host = f p.host := by
  rw [cycle_eq]
  exact (step_keeps hf _).trans ((printLine_keeps hf _).trans (hf.keys _))

/-- Every deed of a run is made of services. -/
theorem Does.keeps {deed : Deed} (hf : H.Keeps f) (h : Does H p deed q) : f q.host = f p.host := by
  cases h with
  | report next => exact hf.report _ _
  | update next _ => exact updated_keeps hf p next
  | quit _ => exact updated_keeps hf p p.nextDisplay
  | turn => exact cycle_keeps hf p

/-- What each deed keeps, a whole story keeps. -/
theorem Story.keeps {moments : List (Moment τ σ)} (hf : H.Keeps f) (h : Story H p moments q) :
    f q.host = f p.host := by
  -- By induction on the story, deed by deed.
  induction h with
  | nil p => rfl
  | cons hdoes _ _ ih => exact ih.trans (hdoes.keeps hf)

end Pacer

end Keeping

namespace Session

open Lifecycle

variable {τ : Type} {w : World τ} {system : System}

/-! ## Worlds -/

/-- How often a system was taken over and not given back. -/
def held (system : System) (w : World τ) : Int := system.taken w.calls - system.given w.calls

/-- What calls add to the count of a system. -/
def net (system : System) (calls : List HostCall) : Int :=
  calls.countP system.taking - calls.countP system.giving

/-- A call that neither takes a system over nor gives one back. -/
def HostCall.idle : HostCall → Bool
  | .terminal .enter | .terminal .leave => false
  | .window .openDisplay | .window .closeDisplay => false
  | .window .openMixer | .window .closeMixer => false
  | _ => true

theorem HostCall.of_idle {call : HostCall} (h : call.idle = true) (system : System) :
    system.taking call = false ∧ system.giving call = false := by
  rcases call with call | call <;> cases call <;> cases system <;>
    first | exact ⟨rfl, rfl⟩ | cases h

/-- Idle calls add nothing to any count. -/
theorem net_of_idle {calls : List HostCall} (hidle : ∀ call ∈ calls, call.idle = true) :
    net system calls = 0 := by
  have htaken : calls.countP system.taking = 0 :=
    List.countP_eq_zero.mpr fun call hcall => by simp [HostCall.of_idle (hidle call hcall) system]
  have hgiven : calls.countP system.giving = 0 :=
    List.countP_eq_zero.mpr fun call hcall => by simp [HostCall.of_idle (hidle call hcall) system]
  simp [net, htaken, hgiven]

theorem net_append (calls calls' : List HostCall) :
    net system (calls ++ calls') = net system calls + net system calls' := by
  simp only [net, List.countP_append]
  omega

/-- New calls add their net count to what is held. -/
theorem held_append (calls : List HostCall) :
    held system { w with calls := w.calls ++ calls.toArray } =
      held system w + net system calls := by
  simp only [held, System.taken, System.given, net, Array.countP_append, List.countP_toArray]
  omega

theorem held_callWindow (calls : List Window.Call) :
    held system (w.callWindow calls) = held system w + net system (calls.map .window) :=
  held_append _

theorem held_callTerminal (calls : List Terminal.Call) :
    held system (w.callTerminal calls) = held system w + net system (calls.map .terminal) :=
  held_append _

theorem held_callWindow_of_idle {calls : List Window.Call}
    (hidle : ∀ call ∈ calls, (HostCall.window call).idle = true) :
    held system (w.callWindow calls) = held system w := by
  rw [held_callWindow, net_of_idle (List.forall_mem_map.mpr hidle), Int.add_zero]

theorem held_callTerminal_of_idle {calls : List Terminal.Call}
    (hidle : ∀ call ∈ calls, (HostCall.terminal call).idle = true) :
    held system (w.callTerminal calls) = held system w := by
  rw [held_callTerminal, net_of_idle (List.forall_mem_map.mpr hidle), Int.add_zero]

/-! ## Parts of a session -/

variable {α β : Type} {x : Activity τ α} {f : α → Activity τ β} {part : α → Option System}

/-- A part of a session takes over the system of what it opens. If it fails, it leaves
behind what its failure tells. -/
def Takes (x : Activity τ α) (part : α → Option System) : Prop :=
  ∀ (w : World τ) (system : System), held system (x.run w).2 = held system w +
    match (x.run w).1 with
    | .ok a => if part a = some system then 1 else 0
    | .error failure => if failure.keeps? = some system then 1 else 0

/-- A part of a session that gives back all that it takes over, unless its failure tells
otherwise. -/
def Settled (x : Activity τ α) : Prop := Takes x fun _ => none

/-- A part of a session gives a system back, and does not fail. -/
structure GivesBack (x : Activity τ Unit) (part : Option System) : Prop where
  quiet : Quiet x
  gives : ∀ (w : World τ) (system : System),
    held system (x.run w).2 = held system w - if part = some system then 1 else 0

theorem run_get_bind (f : World τ → Activity τ β) (w : World τ) : (get >>= f).run w = (f w).run w :=
  rfl

theorem settled_pure (a : α) : Settled (pure a : Activity τ α) := by
  intro w system
  exact (Int.add_zero _).symm

/-- Failing calls nothing, so it is settled as long as the failure leaves nothing behind. -/
theorem settled_throw {failure : Failure} (hnone : failure.keeps? = none) :
    Settled (throw failure : Activity τ α) := by
  intro w system
  show held system w = held system w + if failure.keeps? = some system then 1 else 0
  simp [hnone]

/-- A result without an activity is settled if none of its failures leaves anything behind. -/
theorem settled_except {result : Except Failure α}
    (hnone : ∀ failure, result = .error failure → failure.keeps? = none) :
    Settled (liftM result : Activity τ α) := by
  cases result with
  | ok a => exact settled_pure a
  | error failure => exact settled_throw (hnone failure rfl)

/-- So is a result whose failures are reported under another name. -/
theorem settled_attempt {ε : Type} {failure : ε → Failure} {result : Except ε α}
    (hnone : ∀ cause, (failure cause).keeps? = none) :
    Settled (attempt failure result : Activity τ α) := by
  cases result with
  | ok a => exact settled_pure a
  | error cause => exact settled_throw (hnone cause)

theorem settled_get : Settled (get : Activity τ (World τ)) := by
  intro w system
  exact (Int.add_zero _).symm

/-- A change to the world that calls nothing is settled. -/
theorem settled_modify {g : World τ → World τ}
    (hg : ∀ w system, held system (g w) = held system w) :
    Settled (modify g : Activity τ PUnit) := by
  intro w system
  exact (hg w system).trans (Int.add_zero _).symm

/-- A settled part may come before one that takes a system over. -/
theorem Settled.takes_bind {part : β → Option System} (hx : Settled x)
    (hf : ∀ a, Takes (f a) part) : Takes (x >>= f) part := by
  intro w system
  have hfirst := hx w system
  rw [run_bind]
  rcases hrun : x.run w with ⟨failure | a, w'⟩
  · -- A failure ends the whole before the second part begins.
    rw [hrun] at hfirst
    exact hfirst
  · rw [hrun] at hfirst
    have hheld : held system w' = held system w := hfirst.trans (Int.add_zero _)
    rw [← hheld]
    exact hf a w' system

/-- Settled parts one after the other are settled. -/
theorem Settled.bind (hx : Settled x) (hf : ∀ a, Settled (f a)) : Settled (x >>= f) :=
  hx.takes_bind hf

/-- What is opened is closed again, also after a failure. -/
theorem Takes.guarded {close : α → Activity τ Unit} (hx : Takes x part)
    (hclose : ∀ a, GivesBack (close a) (part a)) (hf : ∀ a, Settled (f a)) :
    Settled (x >>= fun a => tryFinally (f a) (close a)) := by
  intro w system
  have hopened := hx w system
  rw [run_bind]
  -- If opening fails there is nothing to close, and the failure tells what is left behind.
  rcases hrun : x.run w with ⟨failure | a, w'⟩
  · rw [hrun] at hopened
    exact hopened
  · rw [hrun] at hopened
    dsimp only at hopened ⊢
    have hinner := hf a w' system
    have hclosed := (hclose a).gives ((f a).run w').2 system
    rw [run_tryFinally_of_quiet (hclose a).quiet, hclosed, hinner, hopened]
    -- The balance of opening and closing does not depend on how the session went between.
    rcases ((f a).run w').1 with failure | b
    · dsimp only
      omega
    · simp

/-- A missing option ends a session before anything is called for it. -/
theorem settled_require (r : Request τ) (names : List OptionName) :
    Settled (liftM (r.require names) : Activity τ Unit) := by
  refine settled_except ?_
  -- The first missing name decides, so by induction on the names.
  induction names with
  | nil =>
    rintro _ ⟨⟩
  | cons name names ih =>
    rw [Request.require]
    split
    · rintro _ ⟨⟩
      rfl
    · exact ih

/-- A setting of the wrong kind is refused without a call. -/
theorem settled_setting (name : OptionName) (s : Except ValueKind α) :
    Settled (Request.setting name s : Activity τ α) :=
  settled_attempt fun _ => rfl

/-- Loading a program reads files and calls nothing on the host. -/
theorem settled_loadProgram (r : Request τ) : Settled r.loadProgram := by
  unfold Request.loadProgram
  refine (settled_require r _).bind fun _ => ?_
  refine (settled_setting _ _).bind fun name => ?_
  refine settled_get.bind fun w => ?_
  refine Settled.bind (settled_attempt fun _ => rfl) fun program => ?_
  exact (settled_require r _).bind fun _ => settled_pure _

/-- Building a machine calls nothing on the host. -/
theorem settled_buildMachine (program : Array UInt8) :
    Settled (Request.buildMachine program : Activity τ Machine) := by
  unfold Request.buildMachine
  exact settled_get.bind fun w => settled_attempt fun _ => rfl

/-- Reading a key map calls nothing on the host. -/
theorem settled_keyMap (r : Request τ) (folding : Bool) : Settled (r.keyMap folding) := by
  unfold Request.keyMap
  refine (settled_require r _).bind fun _ => ?_
  exact (settled_setting _ _).bind fun text => settled_attempt fun _ => rfl

/-! ## Pace and run -/

section Run

variable [Time τ] {Screen Sound Keys : Type} {H : Host (Live Screen Sound Keys τ)}

/-- A run that ends with a failure leaves nothing behind by it: the failures that do are those
of opening. -/
theorem keeps_of_ofEnding? {ending : Pacer.Ending} {failure : Failure}
    (h : Failure.ofEnding? ending = some failure) : failure.keeps? = none := by
  cases ending with
  | quit => cases h
  | fault cause | endlessTime | clockStopped =>
    cases h
    rfl

/-- Starting a pacer asks its host for the first report and for nothing else. -/
theorem start_host {machine : Machine} {host : Live Screen Sound Keys τ} {live : Bool}
    {rate : Option (Rate τ)} {p : Pacer τ (Live Screen Sound Keys τ)}
    (h : Pacer.start H machine host live rate = .ok p) :
    p.host = H.report host (.ofCounts 0 0) := by
  unfold Pacer.start at h
  cases hinterval : Pacer.intervalAt (rate.getD (.whole Pacer.defaultRate)) with
  | error cause =>
    rw [hinterval] at h
    cases h
  | ok interval =>
    rw [hinterval] at h
    cases h
    rfl

/-- A run goes on from the world that its host is in, whatever the world is. -/
theorem run_run (H : Host (Live Screen Sound Keys τ)) (p : Pacer τ (Live Screen Sound Keys τ))
    (w : World τ) :
    let outcome := p.run H p.host.world.around.readings
    let world := outcome.pacer.host.world
    (run H p).run w =
      ((match Failure.ofEnding? outcome.ending with
        | none => .ok ()
        | some failure => .error failure),
      { world with around := { world.around with readings := outcome.unread } }) := by
  intro outcome world
  show ((match Failure.ofEnding? outcome.ending with
    | none => return ()
    | some failure => throw failure) : Activity τ Unit).run _ = _
  cases Failure.ofEnding? outcome.ending <;> rfl

/-- A machine is paced and runs without anything being taken over or given back. -/
theorem settled_pace_run (hH : ∀ system, H.Keeps fun s => held system s.world) (r : Request τ)
    (screen : Screen) (sound : Sound) (machine : Machine) (keys : Keys) :
    Settled (pace r H screen sound machine keys >>= run H) := by
  unfold pace
  simp only [bind_assoc, pure_bind]
  refine (settled_require r _).bind fun _ => ?_
  refine (settled_setting _ _).bind fun rate => ?_
  intro w system
  rw [run_get_bind]
  rcases hstart : Pacer.start H machine ⟨screen, sound, keys, w⟩
    (r.options.trace.value?.getD false) rate with cause | p
  · have hnone : (Failure.rate cause).keeps? = none := rfl
    exact settled_throw hnone w system
  · -- The run starts in the world that the pacer has left.
    have hrun : ((attempt Failure.rate (.ok p) : Activity τ _) >>= fun q => do
        set q.host.world
        run H q).run w = (run H p).run p.host.world := rfl
    have hstarted : held system p.host.world = held system w := by
      rw [start_host hstart]
      exact (hH system).report _ _
    -- A run is a story, and a story keeps what is held.
    have hkeeps := (Pacer.story_runFrom H p .ready p.host.world.around.readings).1.keeps (hH system)
    rw [hrun, run_run]
    refine (hkeeps.trans hstarted).trans ?_
    cases hending : Failure.ofEnding? (p.run H p.host.world.around.readings).ending with
    | none => simp
    | some failure => simp [keeps_of_ofEnding? hending]

end Run

/-! ## Lifecycles -/

/-- The stages of a lifecycle give back what they take over: the screen and the sound when
they are closed, all others at once. -/
structure Tidy {Program Screen Sound Built Keys Paced : Type}
    (l : Lifecycle (Activity τ) Program Screen Sound Built Keys Paced)
    (ofScreen : Screen → Option System) (ofSound : Sound → Option System) : Prop where
  load : Settled l.load
  openScreen : Takes l.openScreen ofScreen
  openSound : Takes l.openSound ofSound
  build : ∀ program, Settled (l.build program)
  openKeys : ∀ screen, Settled (l.openKeys screen)
  paceRun : ∀ screen sound built keys, Settled (l.pace screen sound built keys >>= l.run)
  closeKeys : ∀ keys, GivesBack (l.closeKeys keys) none
  closeSound : ∀ sound, GivesBack (l.closeSound sound) (ofSound sound)
  closeScreen : ∀ screen, GivesBack (l.closeScreen screen) (ofScreen screen)

/-- A tidy lifecycle is settled, whichever of its stages fails. -/
theorem Tidy.settled {Program Screen Sound Built Keys Paced : Type}
    {l : Lifecycle (Activity τ) Program Screen Sound Built Keys Paced}
    {ofScreen : Screen → Option System} {ofSound : Sound → Option System}
    (h : Tidy l ofScreen ofSound) : Settled l.perform := by
  -- Each guarded part encloses all that comes after it, in the order of the stages.
  refine h.load.bind fun program => ?_
  refine h.openScreen.guarded h.closeScreen fun screen => ?_
  refine h.openSound.guarded h.closeSound fun sound => ?_
  refine (h.build program).bind fun built => ?_
  exact (h.openKeys screen).guarded h.closeKeys fun keys => h.paceRun screen sound built keys

/-- Doing nothing gives nothing back. -/
theorem givesBack_nothing : GivesBack (pure () : Activity τ Unit) none :=
  ⟨fun _ => rfl, fun _ _ => (Int.sub_zero _).symm⟩

/-! ## No front end -/

/-- Without a front end no service calls anything. -/
theorem headless_keeps (system : System) :
    Headless.host.Keeps fun s : Headless.State τ => held system s.world where
  pump _ := rfl
  keys _ := rfl
  report _ _ := rfl
  draw _ _ := rfl
  refresh _ := rfl
  beep _ := rfl
  print _ _ := rfl

/-- Without a front end nothing is taken over. -/
theorem headless_tidy [Time τ] (r : Request τ) :
    Tidy (Headless.lifecycle r) (fun _ => none) (fun _ => none) where
  load := settled_loadProgram r
  openScreen := (settled_require r _).bind fun _ => settled_pure _
  openSound := settled_pure _
  build := settled_buildMachine
  openKeys _ := (settled_keyMap r false).bind fun _ => settled_pure _
  paceRun := settled_pace_run headless_keeps r
  closeKeys _ := givesBack_nothing
  closeSound _ := givesBack_nothing
  closeScreen _ := givesBack_nothing

/-! ## A window -/

theorem idle_refresh (s : Window.Screen) :
    ∀ call ∈ s.refresh.2, (HostCall.window call).idle = true := by
  unfold Window.Screen.refresh
  split <;> simp [Window.Screen.imageCall, HostCall.idle, or_imp, forall_and]

/-- A beep of a buzzer is idle, whether it is started or only kept going. -/
theorem idle_beep (b : Window.Buzzer) (busy : List Bool) :
    ∀ call ∈ (b.beep busy).2.1, (HostCall.window call).idle = true := by
  unfold Window.Buzzer.beep
  dsimp only
  split
  · split <;> simp [HostCall.idle]
  · simp [HostCall.idle]

/-- The services of a window neither open nor close it. -/
theorem window_keeps (system : System) :
    Window.host.Keeps fun s : Window.State τ => held system s.world where
  pump _ := rfl
  keys _ := rfl
  report s r := held_callWindow_of_idle (by simp [HostCall.idle])
  draw _ _ := rfl
  refresh s := held_callWindow_of_idle (idle_refresh s.screen)
  beep s := by
    show held system (Window.beep s).world = held system s.world
    unfold Window.beep
    split
    · rfl
    · exact held_callWindow_of_idle (idle_beep _ _)
  print _ _ := rfl

/-- Presenting a first image is idle. -/
theorem idle_present (width : Figure) (palette : Window.Palette) (smoothing : Setting Int) :
    ∀ call ∈ (Window.Screen.present width palette smoothing).1,
      (HostCall.window call).idle = true := by
  unfold Window.Screen.present
  split
  · simp [Window.Screen.imageCall, HostCall.idle]
  · exact idle_refresh _

/-- The first call opens the display, whether the screen is refused later or not. -/
theorem window_start_calls (scale : Value) (palette : Setting Text) (smoothing : Setting Int) :
    ∃ rest, (Window.Screen.start scale palette smoothing).1 = .openDisplay :: rest ∧
      ∀ call ∈ rest, (HostCall.window call).idle = true := by
  -- The start can fail at the scale or at the palette, and succeeds if it gets beyond both.
  unfold Window.Screen.start
  split
  · exact ⟨_, rfl, by simp [HostCall.idle]⟩
  · split
    · exact ⟨_, rfl, by simp [Window.Screen.modeCalls, HostCall.idle]⟩
    · refine ⟨_, rfl, List.forall_mem_append.mpr ⟨?_, idle_present _ _ _⟩⟩
      simp [Window.Screen.modeCalls, HostCall.idle]

/-- Opening a window takes over the display. A refusal comes after that and leaves it behind.
-/
theorem window_takes (r : Request τ) : Takes (Window.openScreen r) fun _ => some .display := by
  unfold Window.openScreen
  refine (settled_require r _).takes_bind fun _ => ?_
  intro w system
  obtain ⟨rest, hcalls, hidle⟩ :=
    window_start_calls r.options.scale r.options.palette r.options.smoothing
  rcases hstart : Window.Screen.start r.options.scale r.options.palette r.options.smoothing with
    ⟨calls, result⟩
  rw [hstart] at hcalls
  dsimp only at hcalls
  have hheld : held system (w.callWindow calls) =
      held system w + if some System.display = some system then 1 else 0 := by
    have hone : net system [HostCall.window .openDisplay] =
        if some System.display = some system then 1 else 0 := by
      cases system <;> rfl
    rw [hcalls, held_callWindow, List.map_cons, ← List.singleton_append, net_append, hone,
      net_of_idle (List.forall_mem_map.mpr hidle), Int.add_zero]
  -- A refused screen leaves the display behind just as an open one does.
  cases result with
  | ok screen => exact hheld
  | error cause => exact hheld

/-- Opening the sound takes over the mixer, if sound is asked for. -/
theorem window_takes_sound (r : Request τ) :
    Takes (Window.openSound r) fun sound => sound.map fun _ => .mixer := by
  unfold Window.openSound
  split
  · exact settled_pure _
  · -- There is a buzzer to close just when the mixer was opened.
    intro w system
    cases system <;> exact held_callWindow _

/-- Each part of a session in a window gives back what it took over. -/
theorem window_tidy [Time τ] (r : Request τ) :
    Tidy (Window.lifecycle r) (fun _ => some .display)
      (fun sound => sound.map fun _ => .mixer) where
  load := settled_loadProgram r
  openScreen := window_takes r
  openSound := window_takes_sound r
  build := settled_buildMachine
  openKeys _ := (settled_keyMap r false).bind fun _ => settled_pure _
  paceRun := settled_pace_run window_keeps r
  closeKeys _ := givesBack_nothing
  closeSound sound := by
    cases sound with
    | none => exact givesBack_nothing
    | some buzzer =>
      refine ⟨fun _ => rfl, fun w system => ?_⟩
      cases system <;> exact held_callWindow _
  closeScreen screen := by
    refine ⟨fun _ => rfl, fun w system => ?_⟩
    cases system <;> exact held_callWindow _

/-! ## A terminal -/

section Terminal

/-- Drawing on a pad is idle. -/
theorem idle_draw (s : Terminal.Screen) (frame : Array UInt8) :
    ∀ call ∈ (s.draw frame).2, (HostCall.terminal call).idle = true := by
  -- Every call of a drawing writes one cell.
  intro call hcall
  obtain ⟨i, -, rfl⟩ := Array.mem_mapIdx.mp (Array.mem_toList_iff.mp hcall)
  rfl

/-- A change of the title is idle. -/
theorem idle_setTitle (s : Terminal.Screen) (title : Text) :
    ∀ call ∈ (s.setTitle title).2, (HostCall.terminal call).idle = true := by
  unfold Terminal.Screen.setTitle
  dsimp only
  split <;> simp [HostCall.idle]

/-- Showing a pad is idle, and so is a change of its size. -/
theorem idle_refreshed (s : Terminal.Screen) (size : Int × Int) (canResize : Bool) :
    ∀ call ∈ (s.refresh size canResize).2, (HostCall.terminal call).idle = true := by
  unfold Terminal.Screen.refresh
  split
  · split <;> simp [HostCall.idle]
  · cases canResize <;> simp [HostCall.idle]

/-- Closing a screen leaves the terminal, with or without showing its cursor again. -/
theorem terminal_close (screen : Terminal.Screen) :
    GivesBack (Terminal.call screen.close : Activity τ Unit) (some .terminal) := by
  refine ⟨fun _ => rfl, fun w system => ?_⟩
  refine (held_callTerminal _).trans ?_
  unfold Terminal.Screen.close
  split <;> cases system <;> rfl

variable [Time τ]

/-- A bell is idle. -/
theorem idle_bell (b : Terminal.Bell τ) (now : τ) :
    ∀ call ∈ (b.beep now).2, (HostCall.terminal call).idle = true := by
  unfold Terminal.Bell.beep
  dsimp only
  split <;> simp [HostCall.idle]

/-- The services of a terminal neither enter nor leave it. -/
theorem terminal_keeps (system : System) :
    Terminal.host.Keeps fun s : Terminal.State τ => held system s.world where
  pump _ := rfl
  keys _ := rfl
  report s r := held_callTerminal_of_idle (idle_setTitle s.screen r.title)
  draw s frame := held_callTerminal_of_idle (idle_draw s.screen frame)
  refresh s := held_callTerminal_of_idle (idle_refreshed s.screen _ _)
  beep s := by
    show held system (Terminal.beep s).world = held system s.world
    unfold Terminal.beep
    split
    · rfl
    · exact held_callTerminal_of_idle (idle_bell _ _)
  print _ _ := rfl

omit [Time τ] in
/-- A scale that is refused leaves nothing behind, since the terminal is not entered yet. -/
theorem keeps_of_scaleOf {scale : Value} {cause : Terminal.Screen.StartError}
    (h : Terminal.Screen.scaleOf scale = .error cause) :
    (Failure.terminal cause).keeps? = none := by
  unfold Terminal.Screen.scaleOf at h
  split at h
  · cases h
    rfl
  · dsimp only at h
    split at h <;> cases h
    rfl

omit [Time τ] in
/-- Opening a terminal enters it. A refused cursor comes after that and leaves it entered. -/
theorem terminal_takes (r : Request τ) : Takes (Terminal.openScreen r) fun _ => some .terminal := by
  unfold Terminal.openScreen
  refine (settled_require r _).takes_bind fun _ => ?_
  intro w system
  rw [run_get_bind]
  unfold Terminal.Screen.start
  cases hscale : Terminal.Screen.scaleOf r.options.scale with
  | error cause =>
    -- The scale is looked at before the terminal is taken over.
    refine (held_callTerminal []).trans ?_
    show held system w + net system [] =
      held system w + if (Failure.terminal cause).keeps? = some system then 1 else 0
    rw [keeps_of_scaleOf hscale]
    rfl
  | ok scale =>
    cases w.around.refusesCursor with
    | true => cases system <;> exact held_callTerminal _
    | false => cases system <;> exact held_callTerminal _

/-- Each part of a session on a terminal gives back what it took over. -/
theorem terminal_tidy (r : Request τ) :
    Tidy (Terminal.lifecycle r) (fun _ => some .terminal) (fun _ => none) where
  load := settled_loadProgram r
  openScreen := terminal_takes r
  openSound := settled_pure _
  build := settled_buildMachine
  openKeys _ := by
    refine (settled_keyMap r true).bind fun map => ?_
    exact settled_get.bind fun w => settled_pure _
  paceRun := settled_pace_run terminal_keeps r
  closeKeys _ := givesBack_nothing
  closeSound _ := givesBack_nothing
  closeScreen := terminal_close

end Terminal

/-! ## Sessions -/

variable [Time τ]

omit [Time τ] in
/-- A choice of front end that fails comes before anything is taken over. -/
theorem keeps_of_chooseFrontEnd {asked : Setting FrontEndKind} {hasWindows hasTerminal : Bool}
    {failure : Failure} (h : chooseFrontEnd asked hasWindows hasTerminal = .error failure) :
    failure.keeps? = none := by
  unfold chooseFrontEnd at h
  cases hasWindows <;> cases hasTerminal <;> split at h <;> cases h <;> rfl

omit [Time τ] in
/-- Choosing a front end settles nothing but the choice. -/
theorem settled_enter (r : Request τ) : Settled (enter r) := by
  unfold enter
  refine Settled.bind (settled_modify fun _ _ => rfl) fun _ => ?_
  refine (settled_require r _).bind fun _ => ?_
  exact settled_get.bind fun w => settled_except fun _ => keeps_of_chooseFrontEnd

/-- A session on any front end is settled, since each of them is tidy. -/
theorem settled_performOn (r : Request τ) (kind : Option FrontEndKind) :
    Settled (performOn r kind) := by
  cases kind with
  | none => exact (settled_loadProgram r).bind fun _ => settled_throw rfl
  -- The kinds of front end have a lifecycle each.
  | some kind =>
    cases kind with
    | window => exact (window_tidy r).settled
    | terminal => exact (terminal_tidy r).settled
    | headless => exact (headless_tidy r).settled

/-- The request for a program on a front end. The palette is not one of colours. -/
def askingFor (kind : FrontEndKind) : Request Rat where
  options := { Options.default "prog.ch8" with frontEnd := .value kind, palette := .value "12345z" }
  missing := []

/-- Surroundings with a program and both systems. The terminal refuses to hide its cursor. -/
def Surroundings.refusing : Surroundings Rat :=
  { bare with
    read := fun _ => .ok #[0x6A, 0x0B, 0xA0, 0x50, 0xDA, 0xA5, 0x60, 0x03, 0xF0, 0x18, 0x12, 0x06]
    hasWindows := true
    hasTerminal := true
    refusesCursor := true }

/-- However a session ends, each system was given back as often as it was taken over, but
for that of a screen that was refused while it was being opened. The surroundings may refuse
files and the hiding of a cursor, and all other calls on the host succeed. -/
theorem released_unless_refused (r : Request τ) (around : Surroundings τ) (system : System) :
    let outcome := play r around
    system.taken outcome.calls = system.given outcome.calls +
      if outcome.failure.bind Failure.keeps? = some system then 1 else 0 := by
  have hsettled : Settled (session r) := (settled_enter r).bind (settled_performOn r)
  have hheld := hsettled (World.start around) system
  have hstart : held system (World.start around) = 0 := rfl
  -- What a session leaves held is what its failure tells, and nothing was held at first.
  rcases hrun : (session r).run (World.start around) with ⟨failure | _, w⟩
  · rw [hrun, hstart] at hheld
    simp only [play, hrun, Option.bind_some]
    simp only [held] at hheld
    split at hheld <;> simp only [*, if_true, if_false] <;> omega
  · rw [hrun, hstart] at hheld
    simp only [play, hrun, Option.bind_none]
    simp only [held, reduceCtorEq, if_false] at hheld ⊢
    omega

/-- A terminal that refuses to hide its cursor, and a display whose palette is refused, are
taken over and never given back. -/
theorem refused_screen_is_kept :
    let onTerminal := play (askingFor .terminal) .refusing
    let inWindow := play (askingFor .window) .refusing
    (onTerminal.failure = some (.terminal .cursorRefused) ∧
      System.terminal.taken onTerminal.calls = 1 ∧ System.terminal.given onTerminal.calls = 0) ∧
    (inWindow.failure = some (.window (.palette .notHexadecimal)) ∧
      System.display.taken inWindow.calls = 1 ∧ System.display.given inWindow.calls = 0) := by
  exact ⟨⟨rfl, rfl, rfl⟩, rfl, rfl, rfl⟩

end Session

end Chip8
