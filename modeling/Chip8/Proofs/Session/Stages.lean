import Chip8.Session

/-!
# Chip8.Proofs.Session.Stages — the stages of a session and what they leave open

Each of the seven stages of a session may fail in its own way, and three of them open
a part of a front end that is to be closed again. What is said here holds of every
lifecycle, whatever its stages do:

* `Lifecycle.recorded` — the lifecycle with a record beside the state, in which each
  stage enters how it went, and each closing which part it closed.
* `Account` — how a session may go: the stages that completed, with what they opened,
  and the stage that failed. `Account.InOrder` says that these are the first of a list
  of stages, and all of them unless one failed.
* `Lifecycle.Records` — what the rest of a lifecycle enters into the record is what an
  account says: its stages in their order, and then the parts that were opened, closed
  from the newest to the oldest.

`records_step`, `records_guarded` and `records_last` make the record of a lifecycle from
those of its stages. `session_goes_in_order` adds that a session is the lifecycle of its
front end.
-/

namespace Chip8.Lifecycle

/-! ## Stages, parts and events -/

/-- The stages of a session. -/
inductive Stage where
  | load | openScreen | openSound | build | openKeys | pace | run
deriving DecidableEq, Repr

/-- All stages, in their order. -/
def Stage.all : List Stage := [load, openScreen, openSound, build, openKeys, pace, run]

/-- Whether a stage opens a part of a front end. -/
def Stage.opens : Stage → Bool
  | openScreen | openSound | openKeys => true
  | load | build | pace | run => false

/-- A part of a front end. -/
inductive Part (Screen Sound Keys : Type) where
  | screen (screen : Screen)
  | sound (sound : Sound)
  | keys (keys : Keys)
deriving DecidableEq, Repr

variable {ε σ Program Screen Sound Keys Built Paced α : Type}

/-- The stage that opens a part. -/
def Part.stage : Part Screen Sound Keys → Stage
  | screen _ => .openScreen
  | sound _ => .openSound
  | keys _ => .openKeys

/-- What is entered into the record of a session. -/
inductive Event (ε Screen Sound Keys : Type) where
  /-- A stage completed, and may have opened a part. -/
  | completed (stage : Stage) (opened : Option (Part Screen Sound Keys))
  /-- A stage failed. -/
  | failed (stage : Stage) (cause : ε)
  /-- A part was closed. -/
  | closed (part : Part Screen Sound Keys)
deriving DecidableEq, Repr

/-! ## The record -/

/-- Actions that change a state and may fail, with a record beside the state. -/
abbrev Recorded (ε σ Screen Sound Keys : Type) :=
  ExceptT ε (StateM (σ × List (Event ε Screen Sound Keys)))

/-- An action that enters how it went as a stage. -/
def entered (stage : Stage) (opened : α → Option (Part Screen Sound Keys))
    (x : ExceptT ε (StateM σ) α) : Recorded ε σ Screen Sound Keys α :=
  ExceptT.mk fun (s, record) =>
    match x.run s with
    | (.ok a, s) => (.ok a, s, record ++ [.completed stage (opened a)])
    | (.error cause, s) => (.error cause, s, record ++ [.failed stage cause])

/-- An action that enters which part it closed. -/
def enteredClosing (part : Part Screen Sound Keys) (x : ExceptT ε (StateM σ) Unit) :
    Recorded ε σ Screen Sound Keys Unit :=
  ExceptT.mk fun (s, record) =>
    let (result, s) := x.run s
    (result, s, record ++ [.closed part])

/-- The same stages, with a record. -/
def recorded (l : Lifecycle (ExceptT ε (StateM σ)) Program Screen Sound Built Keys Paced) :
    Lifecycle (Recorded ε σ Screen Sound Keys) Program Screen Sound Built Keys Paced where
  load := entered .load (fun _ => none) l.load
  openScreen := entered .openScreen (fun screen => some (.screen screen)) l.openScreen
  openSound := entered .openSound (fun sound => some (.sound sound)) l.openSound
  build program := entered .build (fun _ => none) (l.build program)
  openKeys screen := entered .openKeys (fun keys => some (.keys keys)) (l.openKeys screen)
  pace screen sound built keys :=
    entered .pace (fun _ => none) (l.pace screen sound built keys)
  run paced := entered .run (fun _ => none) (l.run paced)
  closeKeys keys := enteredClosing (.keys keys) (l.closeKeys keys)
  closeSound sound := enteredClosing (.sound sound) (l.closeSound sound)
  closeScreen screen := enteredClosing (.screen screen) (l.closeScreen screen)

/-- An action that does not fail. -/
def Quiet (x : ExceptT ε (StateM σ) Unit) : Prop := ∀ s, (x.run s).1 = .ok ()

/-- No part fails to close. -/
structure ClosesQuietly
    (l : Lifecycle (ExceptT ε (StateM σ)) Program Screen Sound Built Keys Paced) : Prop where
  keys : ∀ keys, Quiet (l.closeKeys keys)
  sound : ∀ sound, Quiet (l.closeSound sound)
  screen : ∀ screen, Quiet (l.closeScreen screen)

/-! ## Accounts -/

/-- How a session may go: the stages that completed, each with the part that it opened,
and the stage that failed, with its cause. -/
structure Account (ε Screen Sound Keys : Type) where
  completed : List (Stage × Option (Part Screen Sound Keys))
  failure : Option (Stage × ε)

namespace Account

variable {a : Account ε Screen Sound Keys} {stage : Stage} {stages : List Stage}

/-- The stages that were entered. -/
def attempted (a : Account ε Screen Sound Keys) : List Stage :=
  a.completed.map (·.1) ++ (a.failure.map (·.1)).toList

/-- The parts that were opened. -/
def opened (a : Account ε Screen Sound Keys) : List (Part Screen Sound Keys) :=
  a.completed.filterMap (·.2)

/-- How the session ends: with the cause of the stage that failed. -/
def result (a : Account ε Screen Sound Keys) : Except ε Unit :=
  match a.failure with
  | none => .ok ()
  | some (_, cause) => .error cause

/-- The record: the stages, and then the closing of what was opened, the newest first. -/
def events (a : Account ε Screen Sound Keys) : List (Event ε Screen Sound Keys) :=
  a.completed.map (fun c => .completed c.1 c.2) ++
    (a.failure.map fun f => .failed f.1 f.2).toList ++ a.opened.reverse.map .closed

/-- An account goes through stages in their order: it enters no others, and all of them
unless one fails; those that are to open a part have opened it when they complete. -/
structure InOrder (a : Account ε Screen Sound Keys) (stages : List Stage) : Prop where
  initial : a.attempted <+: stages
  whole : a.failure = none → a.attempted = stages
  opening : ∀ c ∈ a.completed, c.2.map Part.stage = if c.1.opens then some c.1 else none

/-- The account of a stage that failed. -/
def stopped (stage : Stage) (cause : ε) : Account ε Screen Sound Keys :=
  ⟨[], some (stage, cause)⟩

/-- The account of a stage that completed, and of what came after it. -/
def after (stage : Stage) (part : Option (Part Screen Sound Keys))
    (a : Account ε Screen Sound Keys) : Account ε Screen Sound Keys :=
  { a with completed := (stage, part) :: a.completed }

@[simp]
theorem result_after (part : Option (Part Screen Sound Keys)) :
    (after stage part a).result = a.result := rfl

@[simp]
theorem events_after_none : (after stage none a).events = .completed stage none :: a.events :=
  rfl

/-- A stage that opens a part has two entries: it comes before all others, and its part is
closed after them. -/
@[simp]
theorem events_after_some (part : Part Screen Sound Keys) :
    (after stage (some part) a).events =
      .completed stage (some part) :: (a.events ++ [.closed part]) := by
  simp [events, opened, after]

/-- The account of a stage that failed goes through any stages of which it is the first. -/
theorem inOrder_stopped (cause : ε) :
    (stopped stage cause : Account ε Screen Sound Keys).InOrder (stage :: stages) := by
  constructor
  · exact List.prefix_append [stage] stages
  · intro hnone
    cases hnone
  · intro c hc
    cases hc

/-- A stage that completed may come before the stages of an account, if it opened what it is to
open. -/
theorem InOrder.after {part : Option (Part Screen Sound Keys)} (ha : a.InOrder stages)
    (hpart : part.map Part.stage = if stage.opens then some stage else none) :
    (a.after stage part).InOrder (stage :: stages) := by
  constructor
  · exact (List.prefix_cons_inj stage).mpr ha.initial
  · intro hnone
    exact congrArg (stage :: ·) (ha.whole hnone)
  · intro c hc
    -- The new stage is looked at here, and the others were looked at before.
    rcases List.mem_cons.mp hc with rfl | hc
    · exact hpart
    · exact ha.opening c hc

/-- A stage that fails at first leaves no other completed. -/
theorem InOrder.completed_of_first {cause : ε} (ha : a.InOrder (stage :: stages))
    (hnew : stage ∉ stages) (hfailure : a.failure = some (stage, cause)) : a.completed = [] := by
  have hinitial := ha.initial
  rw [attempted, hfailure] at hinitial
  rcases hcompleted : a.completed with _ | ⟨c, completed⟩
  · rfl
  · -- Otherwise the stage would come again among the later ones.
    rw [hcompleted] at hinitial
    have hlater := (List.cons_prefix_cons.mp hinitial).2
    exact absurd (hlater.subset (by simp)) hnew

/-- Where each stage that is to open a part has opened it, the parts come in the order of
their stages. -/
theorem stages_of_opened {completed : List (Stage × Option (Part Screen Sound Keys))}
    (h : ∀ c ∈ completed, c.2.map Part.stage = if c.1.opens then some c.1 else none) :
    (completed.filterMap (·.2)).map Part.stage = (completed.map (·.1)).filter Stage.opens := by
  -- By induction on the stages. One that opens nothing adds to neither list.
  induction completed with
  | nil => rfl
  | cons c completed ih =>
    obtain ⟨stage, part⟩ := c
    obtain ⟨hfirst, hrest⟩ := List.forall_mem_cons.mp h
    have hlater := ih hrest
    cases hopens : stage.opens with
    | false =>
      have hnone : part = none := by simpa [hopens] using hfirst
      simpa [hnone, hopens] using hlater
    | true =>
      obtain ⟨opened, rfl, hstage⟩ : ∃ opened, part = some opened ∧ opened.stage = stage := by
        simpa [hopens] using hfirst
      simpa [hopens, hstage] using hlater

/-- The parts come in the order of the stages that open them, and none is left out before
another. -/
theorem InOrder.opened_stages (ha : a.InOrder stages) :
    a.opened.map Part.stage <+: stages.filter Stage.opens := by
  rw [opened, stages_of_opened ha.opening]
  exact ((List.prefix_append _ _).trans ha.initial).filter _

/-- The account of a session in which nothing is left to do. -/
theorem inOrder_nil : (⟨[], none⟩ : Account ε Screen Sound Keys).InOrder [] := by
  constructor
  · exact List.prefix_rfl
  · intro _
    rfl
  · intro c hc
    cases hc

end Account

/-! ## The record of a lifecycle, stage by stage -/

/-- An action goes through stages: with a record beside the state it does the same, and
enters what an account of the stages says. -/
def Records (x : ExceptT ε (StateM σ) Unit) (y : Recorded ε σ Screen Sound Keys Unit)
    (stages : List Stage) : Prop :=
  ∀ s record, ∃ a : Account ε Screen Sound Keys, a.InOrder stages ∧
    (x.run s).1 = a.result ∧ y.run (s, record) = (a.result, (x.run s).2, record ++ a.events)

section Records

variable {stage : Stage} {stages : List Stage} {x : ExceptT ε (StateM σ) α}
  {f : α → ExceptT ε (StateM σ) Unit} {g : α → Recorded ε σ Screen Sound Keys Unit}

/-- What comes second sees what the first did, if that succeeded. -/
theorem run_bind {β : Type} (f : α → ExceptT ε (StateM σ) β) (s : σ) :
    (x >>= f).run s =
      match x.run s with
      | (.ok a, s) => (f a).run s
      | (.error cause, s) => (.error cause, s) := by
  show (ExceptT.bindCont f (x.run s).1).run (x.run s).2 = _
  rcases x.run s with ⟨cause | a, s⟩ <;> rfl

/-- What is done at last in any case sees what the first did; if it fails, so does the
whole. -/
theorem run_tryFinally {close : ExceptT ε (StateM σ) Unit} (s : σ) :
    (tryFinally x close).run s =
      ((close.run (x.run s).2).1.bind fun _ => (x.run s).1, (close.run (x.run s).2).2) := by
  -- Both may fail, which gives four cases.
  rcases hx : x.run s with ⟨cause | a, s'⟩
  all_goals
    rcases hclose : close.run s' with ⟨other | _, s''⟩
    all_goals
      simp only [ExceptT.run] at hx hclose
      simp only [tryFinally, tryFinally', ExceptT.run, ExceptT.mk, Functor.map, ExceptT.map, bind,
        StateT.bind, pure, hx, hclose]
      rfl

/-- A closing that does not fail leaves the result as it was. -/
theorem run_tryFinally_of_quiet {close : ExceptT ε (StateM σ) Unit} (hclose : Quiet close) (s : σ) :
    (tryFinally x close).run s = ((x.run s).1, (close.run (x.run s).2).2) := by
  rw [run_tryFinally, hclose]
  rfl

/-- What an action does with its record. The entry comes last. -/
theorem entered_run (opened : α → Option (Part Screen Sound Keys)) (s : σ)
    (record : List (Event ε Screen Sound Keys)) :
    (entered stage opened x).run (s, record) =
      match x.run s with
      | (.ok a, s) => (.ok a, s, record ++ [.completed stage (opened a)])
      | (.error cause, s) => (.error cause, s, record ++ [.failed stage cause]) := rfl

/-- What a closing does with its record. -/
theorem enteredClosing_run (part : Part Screen Sound Keys) (close : ExceptT ε (StateM σ) Unit)
    (s : σ) (record : List (Event ε Screen Sound Keys)) :
    (enteredClosing part close).run (s, record) =
      ((close.run s).1, (close.run s).2, record ++ [.closed part]) := rfl

/-- A record does not make a closing fail. -/
theorem quiet_enteredClosing {part : Part Screen Sound Keys} {close : ExceptT ε (StateM σ) Unit}
    (hclose : Quiet close) : Quiet (enteredClosing part close) :=
  fun (s, _) => hclose s

/-- A stage that opens nothing, and the stages after it. -/
theorem records_step (hstage : stage.opens = false) (hrest : ∀ a, Records (f a) (g a) stages) :
    Records (x >>= f) (entered stage (fun _ => none) x >>= g) (stage :: stages) := by
  intro s record
  rw [run_bind, run_bind, entered_run]
  -- If the stage fails, no other is entered.
  rcases x.run s with ⟨cause | b, s'⟩
  · exact ⟨.stopped stage cause, Account.inOrder_stopped cause, rfl, rfl⟩
  · obtain ⟨a, ha, hresult, hrecord⟩ := hrest b s' (record ++ [.completed stage none])
    refine ⟨a.after stage none, ha.after (by simp [hstage]), hresult, ?_⟩
    simp [hrecord]

/-- The last stage. -/
theorem records_last {x : ExceptT ε (StateM σ) Unit} (hstage : stage.opens = false) :
    Records x (entered stage (fun _ => none) x : Recorded ε σ Screen Sound Keys Unit) [stage] := by
  intro s record
  rw [entered_run]
  rcases x.run s with ⟨cause | _, s'⟩
  · exact ⟨.stopped stage cause, Account.inOrder_stopped cause, rfl, rfl⟩
  · refine ⟨.after stage none ⟨[], none⟩, Account.inOrder_nil.after (by simp [hstage]), rfl, ?_⟩
    rfl

/-- A stage that opens a part, and the stages after it; then the part is closed. -/
theorem records_guarded {part : α → Part Screen Sound Keys}
    {close : α → ExceptT ε (StateM σ) Unit} (hstage : stage.opens = true)
    (hpart : ∀ a, (part a).stage = stage) (hclose : ∀ a, Quiet (close a))
    (hrest : ∀ a, Records (f a) (g a) stages) :
    Records (x >>= fun a => tryFinally (f a) (close a))
      (entered stage (fun a => some (part a)) x >>= fun a =>
        tryFinally (g a) (enteredClosing (part a) (close a)))
      (stage :: stages) := by
  intro s record
  rw [run_bind, run_bind, entered_run]
  rcases x.run s with ⟨cause | b, s'⟩
  · -- A stage that fails has opened nothing, so nothing is closed.
    exact ⟨.stopped stage cause, Account.inOrder_stopped cause, rfl, rfl⟩
  · obtain ⟨a, ha, hresult, hrecord⟩ := hrest b s' (record ++ [.completed stage (some (part b))])
    refine ⟨a.after stage (some (part b)), ha.after (by simp [hstage, hpart]), ?_, ?_⟩
    · -- Closing leaves the result of the later stages as it is.
      dsimp only
      rw [run_tryFinally_of_quiet (hclose b)]
      exact hresult
    · -- The closing is entered behind the entries of the later stages.
      dsimp only
      rw [run_tryFinally_of_quiet (hclose b),
        run_tryFinally_of_quiet (quiet_enteredClosing (hclose b)), hrecord, enteredClosing_run]
      simp

end Records

/-- The record of a lifecycle is that of all its stages. -/
theorem records_perform
    {l : Lifecycle (ExceptT ε (StateM σ)) Program Screen Sound Built Keys Paced}
    (hquiet : l.ClosesQuietly) : Records l.perform l.recorded.perform Stage.all := by
  -- Stage by stage; a part that is opened is closed after all later stages.
  refine records_step rfl fun program => ?_
  refine records_guarded rfl (fun _ => rfl) hquiet.screen fun screen => ?_
  refine records_guarded rfl (fun _ => rfl) hquiet.sound fun sound => ?_
  refine records_step rfl fun built => ?_
  refine records_guarded rfl (fun _ => rfl) hquiet.keys fun keys => ?_
  refine records_step rfl fun paced => ?_
  exact records_last rfl

/-- A lifecycle in which one stage fails, and which does nothing else. -/
def failingAt (failing : Stage) :
    Lifecycle (ExceptT Stage (StateM Unit)) Unit Unit Unit Unit Unit Unit where
  load := enter .load
  openScreen := enter .openScreen
  openSound := enter .openSound
  build _ := enter .build
  openKeys _ := enter .openKeys
  pace _ _ _ _ := enter .pace
  run _ := enter .run
  closeKeys _ := return ()
  closeSound _ := return ()
  closeScreen _ := return ()
where
  /-- A stage. -/
  enter (stage : Stage) : ExceptT Stage (StateM Unit) Unit :=
    if stage = failing then throw stage else return ()

example : (failingAt .openKeys).recorded.perform.run ((), []) =
    (.error .openKeys, (), [.completed .load none, .completed .openScreen (some (.screen ())),
      .completed .openSound (some (.sound ())), .completed .build none,
      .failed .openKeys .openKeys, .closed (.sound ()), .closed (.screen ())]) := rfl

end Chip8.Lifecycle

/-! ## Sessions -/

namespace Chip8.Session

open Lifecycle

variable {τ : Type} [Time τ]

/-- A lifecycle of a session, whatever its parts are. -/
structure Staging (τ : Type) where
  {Program Screen Sound Built Keys Paced : Type}
  lifecycle : Lifecycle (Activity τ) Program Screen Sound Built Keys Paced

/-- The lifecycle of a session on a front end. -/
def staging (r : Request τ) : FrontEndKind → Staging τ
  | .window => ⟨Window.lifecycle r⟩
  | .terminal => ⟨Terminal.lifecycle r⟩
  | .headless => ⟨Headless.lifecycle r⟩

/-- A session on a front end is the lifecycle of that front end. -/
theorem performOn_some (r : Request τ) (kind : FrontEndKind) :
    performOn r (some kind) = (staging r kind).lifecycle.perform := by
  cases kind <;> rfl

omit [Time τ] in
/-- A request that has all options lacks none of a list. -/
theorem require_of_complete {r : Request τ} (hcomplete : r.missing = []) (names : List OptionName) :
    r.require names = .ok () := by
  induction names with
  | nil => rfl
  | cons name names ih =>
    rw [Request.require, hcomplete]
    exact ih

omit [Time τ] in
/-- A request that has all options is greeted, and its front end is chosen. -/
theorem enter_run {r : Request τ} (hcomplete : r.missing = []) (w : World τ) :
    (enter r).run w =
      (chooseFrontEnd r.options.frontEnd w.around.hasWindows w.around.hasTerminal,
        w.say Banner.greeting) := by
  unfold enter
  rw [require_of_complete hcomplete]
  show ((liftM (chooseFrontEnd r.options.frontEnd w.around.hasWindows w.around.hasTerminal) :
    Activity τ (Option FrontEndKind))).run (w.say Banner.greeting) = _
  cases chooseFrontEnd r.options.frontEnd w.around.hasWindows w.around.hasTerminal <;> rfl

/-- The front ends close their parts without failing. -/
theorem staging_closesQuietly (r : Request τ) (kind : FrontEndKind) :
    (staging r kind).lifecycle.ClosesQuietly := by
  cases kind with
  | window =>
    -- Only the sound may be missing. Then there is nothing to close.
    refine ⟨fun _ _ => rfl, fun sound _ => ?_, fun _ _ => rfl⟩
    cases sound <;> rfl
  | terminal => exact ⟨fun _ _ => rfl, fun _ _ => rfl, fun _ _ => rfl⟩
  | headless => exact ⟨fun _ _ => rfl, fun _ _ => rfl, fun _ _ => rfl⟩

/-- Surroundings in which there is nothing. -/
def Surroundings.bare : Surroundings Rat where
  read _ := .error .notFound
  hasWindows := false
  hasTerminal := false
  refusesCursor := false
  size := (0, 0)
  canResize := false
  typed := []
  events := []
  busy := []
  random := .seeded 0
  moments := []
  readings := []

/-- A session that has all options goes through the lifecycle of its front end. Whatever
the stages of a lifecycle do, they come in their order and none after one that fails; the
session fails as that stage did. Before it ends, the parts that were opened are closed,
each once, the newest first: the keys, the sound, and the screen. -/
theorem session_goes_in_order (r : Request τ) (around : Surroundings τ) (kind : FrontEndKind)
    (hcomplete : r.missing = [])
    (hchosen : chooseFrontEnd r.options.frontEnd around.hasWindows around.hasTerminal =
      .ok (some kind)) :
    (session r).run (World.start around) =
      (staging r kind).lifecycle.perform.run ((World.start around).say Banner.greeting) ∧
    (staging r kind).lifecycle.ClosesQuietly ∧
    ∀ {ε σ Program Screen Sound Built Keys Paced : Type}
      (l : Lifecycle (ExceptT ε (StateM σ)) Program Screen Sound Built Keys Paced),
      l.ClosesQuietly → ∀ s record, ∃ a : Account ε Screen Sound Keys,
        a.InOrder Stage.all ∧ (l.perform.run s).1 = a.result ∧
        l.recorded.perform.run (s, record) =
          (a.result, (l.perform.run s).2, record ++ a.events) ∧
        a.opened.map Part.stage <+: [.openScreen, .openSound, .openKeys] ∧
        ∀ cause, a.failure = some (.load, cause) → a.events = [.failed .load cause] := by
  refine ⟨?_, staging_closesQuietly r kind, ?_⟩
  · rw [session, run_bind, enter_run hcomplete]
    have hstart : chooseFrontEnd r.options.frontEnd (World.start around).around.hasWindows
        (World.start around).around.hasTerminal = .ok (some kind) := hchosen
    rw [hstart, ← performOn_some]
  · intro ε σ Program Screen Sound Built Keys Paced l hquiet s record
    obtain ⟨a, ha, hresult, hrecord⟩ := records_perform hquiet s record
    refine ⟨a, ha, hresult, hrecord, ha.opened_stages, fun cause hfailure => ?_⟩
    -- The first stage does not come again, so nothing was completed before it failed.
    have hnone : a.completed = [] := ha.completed_of_first (by decide) hfailure
    simp [Account.events, Account.opened, hnone, hfailure]

/-- A session on a terminal, and a lifecycle that fails when the keys are opened. -/
theorem terminal_session_goes_in_order :
    let r : Request Rat := ⟨.default "prog", []⟩
    let around := { Surroundings.bare with hasTerminal := true }
    chooseFrontEnd r.options.frontEnd around.hasWindows around.hasTerminal =
      .ok (some .terminal) ∧
    (session r).run (World.start around) =
      (Terminal.lifecycle r).perform.run ((World.start around).say Banner.greeting) ∧
    ∃ a : Account Stage Unit Unit Unit, a.InOrder Stage.all ∧ a.result = .error .openKeys ∧
      a.events = [.completed .load none, .completed .openScreen (some (.screen ())),
        .completed .openSound (some (.sound ())), .completed .build none,
        .failed .openKeys .openKeys, .closed (.sound ()), .closed (.screen ())] := by
  obtain ⟨hsession, -, hall⟩ := session_goes_in_order (⟨.default "prog", []⟩ : Request Rat)
    { Surroundings.bare with hasTerminal := true } .terminal rfl rfl
  have hquiet : (failingAt .openKeys).ClosesQuietly :=
    ⟨fun _ _ => rfl, fun _ _ => rfl, fun _ _ => rfl⟩
  obtain ⟨a, ha, hresult, hrecord, -⟩ := hall (failingAt .openKeys) hquiet () []
  -- The record began empty, so that it holds the entries of the account and no others.
  refine ⟨rfl, hsession, a, ha, hresult.symm, ?_⟩
  exact (congrArg (·.2.2) hrecord).symm

end Chip8.Session
