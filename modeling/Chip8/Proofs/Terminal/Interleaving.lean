import Chip8.Terminal.Keys

/-!
# Chip8.Proofs.Terminal.Interleaving — the reader and the emulator at one queue

The reader queues what is typed while the emulator takes it. Neither waits for the other,
but in one place: the wish to quit waits for room. `Typing` is the state of both, and
`Typing.Step` one action of either. The actions are made of what `KeyReader.run` and
`Keys.pump` are made of, but any action of the other side may come between two of them. A
`Typing.Path` is such an interleaving, with the list of what happened.

Where nothing comes between, the actions make up the whole again:

* `path_run` — a reader that is left alone goes through `KeyReader.run`.
* `path_pump` — a call that is left alone is `Keys.pump`.

A reader that is told to stop reads no more, so its path is one that goes no further.
-/

namespace Chip8.Terminal

/-- What the emulator does with the queue. -/
inductive Attention (τ : Type) where
  /-- It is busy elsewhere. -/
  | elsewhere
  /-- It was asked at a moment, and takes what was typed. -/
  | taking (now : τ)
  /-- It has made up its mind. -/
  | answering (quit : Bool)

/-- The reader and the emulator. -/
structure Typing (τ : Type) where
  keys : Keys τ
  reader : KeyReader.State
  emulator : Attention τ

/-- The characters of a user who wants to quit. -/
def Quits (char : Int) : Prop := char = 27 ∨ char = 3

instance (char : Int) : Decidable (Quits char) := inferInstanceAs (Decidable (_ ∨ _))

/-- The key that a character stands for, if it stands for one. -/
def typedKey? (map : KeyMap) (char : Int) : Option Key :=
  if char < 0 ∨ Quits char then none else map.key? (KeyMap.smallLetter char)

namespace Typing

variable {τ : Type} {s t : Typing τ} {map : KeyMap}

/-! ## The reader -/

/-- The reader reads a character. -/
def read (s : Typing τ) (char : Int) : Typing τ :=
  let (queue, reader) := KeyReader.read s.keys.map s.keys.queue char
  { s with keys := { s.keys with queue := queue }, reader := reader }

/-- The reader tries to leave. -/
def leave (s : Typing τ) : Typing τ :=
  let (queue, reader) := KeyReader.leave s.keys.queue
  { s with keys := { s.keys with queue := queue }, reader := reader }

theorem typedKey?_of_quits {char : Int} (h : Quits char) : typedKey? map char = none := by
  simp [typedKey?, h]

/-- Folding a letter neither makes a wish to quit nor undoes one. -/
theorem quits_smallLetter (char : Int) :
    KeyReader.isQuit (KeyMap.smallLetter char) = true ↔ Quits char := by
  unfold KeyReader.isQuit KeyMap.smallLetter Quits
  simp only [Bool.or_eq_true, beq_iff_eq]
  -- No letter is folded to one of the two characters.
  split
  · omega
  · exact Iff.rfl

/-- A character makes the reader leave, or offers its key, or is passed over. -/
theorem reader_read (map : KeyMap) (q : KeyQueue) (char : Int) :
    KeyReader.read map q char =
      if Quits char then (q, .leaving)
      else (((typedKey? map char).map q.offer).getD q, .reading) := by
  unfold KeyReader.read typedKey?
  by_cases hquits : Quits char
  · have hpositive : ¬ char < 0 := by
      unfold Quits at hquits
      omega
    simp [hquits, hpositive, quits_smallLetter]
  · by_cases hnegative : char < 0
    · simp [hquits, hnegative]
    · simp only [hnegative, if_false, quits_smallLetter, hquits, or_self]
      cases map.key? (KeyMap.smallLetter char) <;> rfl

/-- A wish to quit makes the reader leave, and the queue is as it was. -/
theorem read_of_quits {char : Int} (h : Quits char) :
    s.read char = { s with reader := .leaving } := by
  simp only [read, reader_read, if_pos h]

/-- The queue after a character that stands for a key, or for nothing. -/
theorem read_of_not_quits {char : Int} (h : ¬ Quits char) :
    s.read char =
      { s with
        keys := { s.keys with
          queue := ((typedKey? s.keys.map char).map s.keys.queue.offer).getD s.keys.queue }
        reader := .reading } := by
  simp only [read, reader_read, if_neg h]

theorem run_of_quits {q : KeyQueue} {char : Int} (h : Quits char) (rest : List Int) :
    KeyReader.run map q (char :: rest) = ⟨(KeyReader.leave q).1, rest, (KeyReader.leave q).2⟩ := by
  rw [KeyReader.run, reader_read, if_pos h]

theorem run_of_not_quits {char : Int} (h : ¬ Quits char) (rest : List Int) :
    KeyReader.run s.keys.map s.keys.queue (char :: rest) =
      KeyReader.run (s.read char).keys.map (s.read char).keys.queue rest := by
  rw [KeyReader.run, reader_read, if_neg h, read_of_not_quits h]

/-- A reader leaves as soon as the queue has room. -/
theorem leave_done_iff : s.leave.reader = .done ↔ s.keys.queue.isFull = false := by
  unfold leave KeyReader.leave
  cases s.keys.queue.isFull <;> simp

/-- The wish to quit comes behind all that waits. -/
theorem leave_of_room (h : s.keys.queue.isFull = false) :
    s.leave =
      { s with keys := { s.keys with queue := s.keys.queue.append .quit }, reader := .done } := by
  simp [leave, KeyReader.leave, h]

/-! ## The emulator -/

variable [Time τ]

/-- No key is held, nothing waits, and at most `n` may wait. -/
def start (map : KeyMap) (n : Nat) : Typing τ :=
  ⟨⟨map, Keys.noDeadlines, .released, .empty n, false⟩, .reading, .elsewhere⟩

/-- The emulator takes an item, and `queue` is left. -/
def take (s : Typing τ) (now : τ) (item : Typed) (queue : KeyQueue) : Typing τ :=
  let (deadlines, _, quit) := Keys.drain (Time.add now holdTime) s.keys.deadlines [item]
  { s with
    keys := { s.keys with deadlines := deadlines, queue := queue }
    emulator := if quit then .answering true else .taking now }

/-! ## Paths -/

/-- What happens. -/
inductive Event (τ : Type) where
  /-- The reader read a character while so many items were waiting. -/
  | read (char : Int) (waiting : Nat)
  /-- The reader left. -/
  | left
  /-- The emulator was asked whether the user wants to quit. -/
  | asked (now : τ)
  | took (item : Typed)
  | foundNothing
  | answered (quit : Bool)

/-- One action of the reader or of the emulator. -/
inductive Step : Typing τ → Event τ → Typing τ → Prop
  | read {s : Typing τ} (char : Int) (h : s.reader = .reading) :
    Step s (.read char s.keys.queue.items.length) (s.read char)
  | left {s : Typing τ} (h : s.reader = .leaving) (hplace : s.leave.reader = .done) :
    Step s .left s.leave
  | asked {s : Typing τ} (now : τ) (h : s.emulator = .elsewhere) :
    Step s (.asked now) { s with emulator := .taking now }
  | took {s : Typing τ} {now : τ} {item : Typed} {queue : KeyQueue}
    (h : s.emulator = .taking now) (htake : s.keys.queue.take? = some (item, queue)) :
    Step s (.took item) (s.take now item queue)
  | foundNothing {s : Typing τ} {now : τ}
    (h : s.emulator = .taking now) (htake : s.keys.queue.take? = none) :
    Step s .foundNothing { s with emulator := .answering false }
  | answered {s : Typing τ} {quit : Bool} (h : s.emulator = .answering quit) :
    Step s (.answered quit) { s with emulator := .elsewhere }

/-- Actions that lead from one state to another, and what happens. -/
inductive Path : Typing τ → List (Event τ) → Typing τ → Prop
  | nil (s : Typing τ) : Path s [] s
  | cons {s t u : Typing τ} {e : Event τ} {rest : List (Event τ)} :
    Step s e t → Path t rest u → Path s (e :: rest) u

theorem Path.append {before after : List (Event τ)} {u : Typing τ} (h : Path s before t)
    (h' : Path t after u) : Path s (before ++ after) u := by
  induction h with
  | nil => exact h'
  | cons hstep _ ih => exact .cons hstep (ih h')

/-- A path can be taken up at each of its events. -/
theorem Path.split {before after : List (Event τ)} {e : Event τ}
    (h : Path s (before ++ e :: after) t) :
    ∃ u v, Path s before u ∧ Step u e v ∧ Path v after t := by
  induction before generalizing s with
  | nil =>
    cases h with
    | cons hstep hrest => exact ⟨s, _, .nil s, hstep, hrest⟩
  | cons first before ih =>
    cases h with
    | cons hstep hrest =>
      obtain ⟨u, v, hbefore, hnext, hafter⟩ := ih hrest
      exact ⟨u, v, .cons hstep hbefore, hnext, hafter⟩

/-! ## Left alone -/

/-- A reader that is left alone goes through its run. -/
theorem path_run (chars : List Int) (hreader : s.reader = .reading) :
    let progress := KeyReader.run s.keys.map s.keys.queue chars
    ∃ trace, Path s trace
      { s with keys := { s.keys with queue := progress.queue }, reader := progress.state } := by
  -- By induction on the characters. The reader stops at a wish to quit, and goes on after any
  -- other.
  induction chars generalizing s with
  | nil =>
    have hsame : { s with reader := .reading } = s := by rw [← hreader]
    exact ⟨[], hsame ▸ .nil s⟩
  | cons char rest ih =>
    by_cases hquits : Quits char
    · rw [run_of_quits hquits]
      have hread := Step.read char hreader
      rw [read_of_quits hquits] at hread
      cases hfull : s.keys.queue.isFull with
      | true =>
        -- There is no room, and the reader goes on waiting.
        refine ⟨[.read char s.keys.queue.items.length], .cons hread ?_⟩
        simp only [KeyReader.leave, hfull, if_true]
        exact .nil _
      | false =>
        refine ⟨[.read char s.keys.queue.items.length, .left],
          .cons hread (.cons (.left rfl (leave_done_iff.mpr hfull)) ?_)⟩
        exact .nil _
    · rw [run_of_not_quits hquits]
      have hreading : (s.read char).reader = .reading := by rw [read_of_not_quits hquits]
      obtain ⟨trace, hpath⟩ := ih hreading
      have hread := Step.read char hreader
      refine ⟨.read char s.keys.queue.items.length :: trace, .cons hread ?_⟩
      rw [read_of_not_quits hquits] at hpath ⊢
      exact hpath

/-- The emulator takes what waits, up to the wish to quit. -/
theorem path_drain {now : τ} (items : List Typed) (hemulator : s.emulator = .taking now)
    (hitems : s.keys.queue.items = items) :
    let drained := Keys.drain (Time.add now holdTime) s.keys.deadlines items
    ∃ taken : List Typed,
      Path s (taken.map .took ++ if drained.2.2 then [] else [.foundNothing])
        { s with
          keys := { s.keys with
            deadlines := drained.1, queue := { s.keys.queue with items := drained.2.1 } }
          emulator := .answering drained.2.2 } := by
  -- By induction on what waits. Each item is taken by an action of its own.
  induction items generalizing s with
  | nil =>
    have hnone : s.keys.queue.take? = none := by rw [KeyQueue.take?, hitems]
    have hsame : { s.keys.queue with items := [] } = s.keys.queue := by rw [← hitems]
    refine ⟨[], .cons (.foundNothing hemulator hnone) ?_⟩
    simp only [Keys.drain, hsame]
    exact .nil _
  | cons item rest ih =>
    have htake : s.keys.queue.take? = some (item, { s.keys.queue with items := rest }) := by
      rw [KeyQueue.take?, hitems]
    have hstep := Step.took hemulator htake
    cases item with
    | quit =>
      -- Whatever is left after the wish to quit stays in the queue.
      exact ⟨[.quit], .cons hstep (.nil _)⟩
    -- The key is taken, and the rest is drained as from the start.
    | key key =>
      obtain ⟨taken, hpath⟩ :=
        ih (s := s.take now (.key key) { s.keys.queue with items := rest }) rfl rfl
      exact ⟨.key key :: taken, .cons hstep hpath⟩

/-- A call that is left alone takes in what was typed and answers. -/
theorem path_pump (now : τ) (hemulator : s.emulator = .elsewhere) :
    let pumped := s.keys.pump now
    ∃ taken : List Typed,
      Path s (.asked now :: ((taken.map .took ++ if pumped.2 then [] else [.foundNothing]) ++
        [.answered pumped.2])) { s with keys := pumped.1, emulator := .elsewhere } := by
  obtain ⟨taken, hpath⟩ := path_drain (s := { s with emulator := .taking now }) _ rfl rfl
  exact ⟨taken, .cons (.asked now hemulator) (hpath.append (.cons (.answered rfl) (.nil _)))⟩

end Typing

end Chip8.Terminal
