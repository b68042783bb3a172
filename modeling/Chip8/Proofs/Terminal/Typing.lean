import Chip8.Proofs.History
import Chip8.Proofs.Terminal.Interleaving

/-!
# Chip8.Proofs.Terminal.Typing — what becomes of typed keys

Whatever the order in which the reader and the emulator act at their queue, the list of
what happened tells how they stand. `Typing.Faithful` says what is lost, in which order
the rest is taken, and what an answer means; all of it is read off from that list:

* `accepted` — the keys that were typed while there was room.
* `taken`, `takenNow` — what the emulator took, at all and since it was asked.
* `moment` — when it was asked.

`Consistent` is what every single action keeps, and `nothing_lost_but_surplus` says that
every path is faithful.
-/

namespace Chip8.Terminal.Typing

variable {τ : Type} {s t : Typing τ} {map : KeyMap} {n : Nat} {trace before : List (Event τ)}
  {e : Event τ}

/-! ## Queues -/

/-- What is taken was the front of the queue, and what was behind it is left. -/
theorem of_take? {q queue : KeyQueue} {item : Typed} (h : q.take? = some (item, queue)) :
    q.items = item :: queue.items ∧ queue.capacity = q.capacity := by
  unfold KeyQueue.take? at h
  split at h
  · cases h
  · rename_i hitems
    cases h
    exact ⟨hitems, rfl⟩

/-- After the wish to quit nothing is left where only keys come before it. -/
theorem last_of_mem {keys : List Key} {front back mark : List Typed}
    (h : front ++ back = keys.map .key ++ mark) (hmark : mark = [] ∨ mark = [.quit])
    (hmem : .quit ∈ front) : back = [] ∧ front = keys.map .key ++ [.quit] := by
  have hkeys : Typed.quit ∉ keys.map .key := by simp
  rcases hmark with rfl | rfl
  · -- There would be no wish to quit at all.
    rw [List.append_nil] at h
    exact absurd (h ▸ List.mem_append_left back hmem) hkeys
  · rcases List.eq_nil_or_concat back with rfl | ⟨between, last, rfl⟩
    · exact ⟨rfl, by simpa using h⟩
    · -- With something behind it, the wish would stand among the keys.
      rw [List.concat_eq_append, ← List.append_assoc] at h
      obtain ⟨hfront, -⟩ := List.append_inj' h rfl
      exact absurd (hfront ▸ List.mem_append_left between hmem) hkeys

/-! ## What a path tells -/

/-- The characters that were read. -/
def charsRead (trace : List (Event τ)) : List Int :=
  trace.filterMap fun
    | .read char _ => some char
    | _ => none

/-- The keys that were typed, each with how many items were waiting then. -/
def offered (map : KeyMap) (trace : List (Event τ)) : List (Key × Nat) :=
  trace.filterMap fun
    | .read char waiting => (typedKey? map char).map fun key => (key, waiting)
    | _ => none

/-- The keys that were typed while fewer than `n` items were waiting. -/
def accepted (map : KeyMap) (n : Nat) (trace : List (Event τ)) : List Key :=
  ((offered map trace).filter (·.2 ≠ n)).map (·.1)

/-- The items that were taken. -/
def taken (trace : List (Event τ)) : List Typed :=
  trace.filterMap fun
    | .took item => some item
    | _ => none

/-- The items taken since the emulator was asked, after one more event. -/
def gather (items : List Typed) : Event τ → List Typed
  | .asked _ => []
  | .took item => items ++ [item]
  | _ => items

/-- The items that were taken since the emulator was asked for the last time. -/
def takenNow (trace : List (Event τ)) : List Typed := trace.foldl gather []

/-- The keys that were offered are those that the characters stand for. -/
theorem offered_keys (map : KeyMap) (trace : List (Event τ)) :
    (offered map trace).map (·.1) = (charsRead trace).filterMap (typedKey? map) := by
  -- Only a character that is read and stands for a key adds to either list.
  induction trace with
  | nil => rfl
  | cons e trace ih =>
    unfold offered charsRead at ih ⊢
    cases e with
    | read char waiting =>
      cases hkey : typedKey? map char <;> simp [hkey, ih]
    | left | asked | took | foundNothing | answered => simpa using ih

/-- What was taken since the emulator was asked was taken. -/
theorem taken_of_gathered {item : Typed} (trace : List (Event τ)) (items : List Typed)
    (h : item ∈ trace.foldl gather items) : item ∈ items ∨ item ∈ taken trace := by
  -- By induction on the events. Being asked again forgets what was gathered.
  induction trace generalizing items with
  | nil => exact .inl h
  | cons e trace ih =>
    have hrest := ih _ h
    cases e with
    | took other =>
      rcases hrest with hitems | htaken
      · rcases List.mem_append.mp hitems with hold | hnew
        · exact .inl hold
        · exact .inr (by simp [taken, List.mem_singleton.mp hnew])
      · exact .inr (List.mem_cons_of_mem _ htaken)
    | asked now =>
      rcases hrest with hnil | htaken
      · cases hnil
      · exact .inr htaken
    | read | left | foundNothing | answered => exact hrest

variable [Time τ]

/-- The moment when the emulator was asked for the last time. -/
def moment (trace : List (Event τ)) : τ :=
  trace.foldl (fun now e =>
    match e with
    | .asked now => now
    | _ => now) Time.zero

/-- The deadline of a key lies a while after the moment when the emulator was asked that
took the key last. -/
def Applied (trace : List (Event τ)) (deadlines : Vector τ 16) : Prop :=
  ∀ key before after, trace = before ++ .took (.key key) :: after → .took (.key key) ∉ after →
    deadlines.get key = Time.add (moment before) holdTime

/-- What happened is told by the state that it leads to: nothing is lost but keys for which
there was no room, the rest is taken as it was typed, and the answers are right. -/
structure Faithful (map : KeyMap) (n : Nat) (trace : List (Event τ)) (s : Typing τ) : Prop where
  /-- No more than `n` items wait. -/
  bounded : s.keys.queue.items.length ≤ n
  /-- What was taken and what waits are the keys that found room, in their order, and then
  the wish to quit, once the reader has left. -/
  inOrder : taken trace ++ s.keys.queue.items =
    (accepted map n trace).map .key ++ if s.reader = .done then [.quit] else []
  /-- These keys are some of those that were typed. -/
  typed : (accepted map n trace).Sublist ((charsRead trace).filterMap (typedKey? map))
  /-- The reader reads on until it reads that the user wants to quit. -/
  reads : s.reader = .reading ↔ ∀ char ∈ charsRead trace, ¬ Quits char
  /-- That is the last character it reads. -/
  last : ∀ before char waiting after, trace = before ++ .read char waiting :: after →
    Quits char → charsRead after = []
  /-- Then it waits for room, and leaves as soon as there is some. -/
  waits : s.reader = .leaving → (s.keys.queue.items.length < n ↔ ∃ t, Step s .left t)
  /-- Nothing is queued after the wish to quit. -/
  leaves : ∀ before after, trace = before ++ .left :: after →
    charsRead after = [] ∧ .left ∉ after
  /-- The emulator answers that the user wants to quit exactly if it took this wish since
  it was asked. -/
  answers : ∀ before quit after, trace = before ++ .answered quit :: after →
    (quit = true ↔ .quit ∈ takenNow before)
  /-- It has taken all that was queued before, then. -/
  empties : ∀ before, trace = before ++ [.answered true] →
    s.keys.queue.items = [] ∧ taken trace = (accepted map n trace).map .key ++ [.quit]
  /-- Each key that was taken has pushed its deadline. -/
  applied : Applied trace s.keys.deadlines

/-! ## One action at a time -/

/-- The state of the emulator tells what it has taken since it was asked. -/
def Attends (trace : List (Event τ)) : Attention τ → Prop
  | .elsewhere => True
  | .taking now => now = moment trace ∧ .quit ∉ takenNow trace
  | .answering quit => quit = true ↔ .quit ∈ takenNow trace

/-- What every action keeps of a faithful path. -/
structure Consistent (map : KeyMap) (n : Nat) (trace : List (Event τ)) (s : Typing τ) :
    Prop where
  map_eq : s.keys.map = map
  capacity : s.keys.queue.capacity = n
  bounded : s.keys.queue.items.length ≤ n
  inOrder : taken trace ++ s.keys.queue.items =
    (accepted map n trace).map .key ++ if s.reader = .done then [.quit] else []
  reads : s.reader = .reading ↔ ∀ char ∈ charsRead trace, ¬ Quits char
  attends : Attends trace s.emulator
  applied : Applied trace s.keys.deadlines

/-- At first nothing has happened, and the queue is empty. -/
theorem consistent_start : Consistent map n [] (start map n : Typing τ) where
  map_eq := rfl
  capacity := rfl
  bounded := Nat.zero_le n
  inOrder := rfl
  reads := by simp [start, charsRead]
  attends := trivial
  applied key before after h := by simp at h

/-- A queue is full exactly if as many items wait as may. -/
theorem Consistent.isFull_iff (hn : 1 ≤ n) (h : Consistent map n trace s) :
    s.keys.queue.isFull = true ↔ n ≤ s.keys.queue.items.length := by
  have hbound : n ≠ 0 := by omega
  simp [KeyQueue.isFull, h.capacity, hbound]

/-- An event that is no taking of a key leaves the deadlines as they are. -/
theorem Applied.concat {deadlines : Vector τ 16}
    (h : Applied trace deadlines) (he : ∀ key, e ≠ .took (.key key)) :
    Applied (trace ++ [e]) deadlines := by
  intro key before after htrace hlater
  rcases History.concat_eq_append_cons_iff.mp htrace with ⟨-, hlast, -⟩ | ⟨between, rfl, hbefore⟩
  · exact absurd hlast (he key)
  · exact h key before between hbefore fun hmem => hlater (List.mem_append_left _ hmem)

/-- The taking of a key pushes the deadline of this key and of no other. -/
theorem Applied.took {deadlines : Vector τ 16}
    (h : Applied trace deadlines) (key : Key) :
    Applied (trace ++ [.took (.key key)])
      (Key.assign deadlines key (Time.add (moment trace) holdTime)) := by
  intro other before after htrace hlater
  rcases History.concat_eq_append_cons_iff.mp htrace with ⟨rfl, hlast, -⟩ | ⟨between, rfl, hbefore⟩
  · cases hlast
    rw [Key.get_assign, if_pos rfl]
  · have hne : key ≠ other := by
      rintro rfl
      exact hlater (List.mem_append_right _ List.mem_cons_self)
    rw [Key.get_assign, if_neg hne]
    exact h other before between hbefore fun hmem => hlater (List.mem_append_left _ hmem)

/-- The attention of the emulator is told as before by an event that is not its own. -/
theorem Attends.concat {attention : Attention τ}
    (h : Attends trace attention) (hnow : takenNow (trace ++ [e]) = takenNow trace)
    (hmoment : moment (trace ++ [e]) = moment trace) : Attends (trace ++ [e]) attention := by
  cases attention with
  | elsewhere => trivial
  | taking now => exact ⟨h.1.trans hmoment.symm, by rw [hnow]; exact h.2⟩
  | answering quit => rw [Attends, hnow]; exact h

/-- Reading a character keeps the account, whatever it stands for. -/
theorem Consistent.read (hn : 1 ≤ n) (h : Consistent map n trace s)
    (hreader : s.reader = .reading) (char : Int) :
    Consistent map n (trace ++ [.read char s.keys.queue.items.length]) (s.read char) := by
  have horder := h.inOrder
  have hattends : Attends (trace ++ [.read char s.keys.queue.items.length]) s.emulator :=
    h.attends.concat (by simp [takenNow, gather]) (by simp [moment])
  have hchars : charsRead (trace ++ [.read char s.keys.queue.items.length]) =
      charsRead trace ++ [char] := by simp [charsRead]
  have happlied := h.applied.concat (e := .read char s.keys.queue.items.length) nofun
  by_cases hquits : Quits char
  · -- The reader wants to leave, and the queue is as it was.
    rw [read_of_quits hquits]
    refine ⟨h.map_eq, h.capacity, h.bounded, ?_, ?_, hattends, happlied⟩
    · simpa [taken, accepted, offered, typedKey?_of_quits hquits, hreader] using horder
    · rw [hchars]
      simp [hquits]
  · rw [read_of_not_quits hquits]
    have hreads : ∀ char' ∈ charsRead trace ++ [char], ¬ Quits char' :=
      List.forall_mem_append.mpr ⟨h.reads.mp hreader, List.forall_mem_singleton.mpr hquits⟩
    rw [← hchars] at hreads
    -- A character that is no wish to quit may stand for a key or for nothing.
    cases hkey : typedKey? s.keys.map char with
    | none =>
      refine ⟨h.map_eq, h.capacity, h.bounded, ?_, iff_of_true rfl hreads, hattends, happlied⟩
      rw [h.map_eq] at hkey
      simpa [taken, accepted, offered, hkey, hreader] using horder
    | some key =>
      have hfull := h.isFull_iff hn
      have hbounded := h.bounded
      rw [h.map_eq] at hkey
      simp only [Option.map_some, Option.getD_some, KeyQueue.offer]
      by_cases hroom : s.keys.queue.items.length = n
      · -- There is no room, and the key is lost.
        rw [if_pos (hfull.mpr (by omega))]
        refine ⟨h.map_eq, h.capacity, h.bounded, ?_, iff_of_true rfl hreads, hattends, happlied⟩
        simpa [taken, accepted, offered, hkey, hroom, hreader] using horder
      · -- There is room, and the key is the last that waits.
        rw [if_neg (mt hfull.mp (by omega))]
        refine ⟨h.map_eq, h.capacity, ?_, ?_, iff_of_true rfl hreads, hattends, happlied⟩
        · simp only [KeyQueue.append, List.length_append, List.length_singleton]
          omega
        · simp only [hreader, reduceCtorEq, if_false, List.append_nil] at horder
          have hconcat : taken trace ++ (s.keys.queue.items ++ [.key key]) =
              (accepted map n trace).map .key ++ [.key key] := by
            rw [← List.append_assoc, horder]
          simpa [taken, accepted, offered, hkey, hroom, KeyQueue.append] using hconcat

/-- Leaving keeps the account: the wish to quit comes last. -/
theorem Consistent.left (hn : 1 ≤ n) (h : Consistent map n trace s)
    (hreader : s.reader = .leaving) (hplace : s.leave.reader = .done) :
    Consistent map n (trace ++ [.left]) s.leave := by
  have hroom := leave_done_iff.mp hplace
  have hfull := h.isFull_iff hn
  rw [hroom] at hfull
  have hchars : charsRead (trace ++ [.left]) = charsRead trace := by simp [charsRead]
  have horder := h.inOrder
  simp only [hreader, reduceCtorEq, if_false, List.append_nil] at horder
  rw [leave_of_room hroom]
  have hattends : Attends (trace ++ [.left]) s.emulator :=
    h.attends.concat (by simp [takenNow, gather]) (by simp [moment])
  -- There was room, so that the bound is kept.
  refine ⟨h.map_eq, h.capacity, ?_, ?_, ?_, hattends, h.applied.concat nofun⟩
  · simp only [KeyQueue.append, List.length_append, List.length_singleton]
    simp at hfull
    omega
  · have hconcat : taken trace ++ (s.keys.queue.items ++ [.quit]) =
        (accepted map n trace).map .key ++ [.quit] := by
      rw [← List.append_assoc, horder]
    simpa [taken, accepted, offered, KeyQueue.append] using hconcat
  · rw [hchars, ← h.reads, hreader]
    simp

/-- Taking an item keeps the account: it moves from the queue to what was taken. -/
theorem Consistent.took {now : τ} {item : Typed} {queue : KeyQueue}
    (h : Consistent map n trace s) (hemulator : s.emulator = .taking now)
    (htake : s.keys.queue.take? = some (item, queue)) :
    Consistent map n (trace ++ [.took item]) (s.take now item queue) := by
  obtain ⟨hitems, hcapacity⟩ := of_take? htake
  have horder := h.inOrder
  have hbounded := h.bounded
  have hattends := h.attends
  rw [hemulator] at hattends
  obtain ⟨rfl, hnone⟩ := hattends
  rw [hitems] at horder hbounded
  have hlength : queue.items.length ≤ n := by
    rw [List.length_cons] at hbounded
    omega
  have hbehind : taken (trace ++ [.took item]) ++ queue.items =
      (accepted map n (trace ++ [.took item])).map .key ++
        if s.reader = .done then [.quit] else [] := by
    simpa [taken, accepted, offered] using horder
  have hreads : s.reader = .reading ↔
      ∀ char ∈ charsRead (trace ++ [.took item]), ¬ Quits char := by
    simpa [charsRead] using h.reads
  have hqueue := hcapacity.trans h.capacity
  -- The wish to quit decides the answer, and a key pushes its deadline.
  cases item with
  | quit =>
    refine ⟨h.map_eq, hqueue, hlength, hbehind, hreads, ?_, h.applied.concat nofun⟩
    show Attends _ (.answering true)
    simp [Attends, takenNow, gather]
  | key key =>
    refine ⟨h.map_eq, hqueue, hlength, hbehind, hreads, ?_, h.applied.took key⟩
    show Attends _ (.taking _)
    refine ⟨by simp [moment], ?_⟩
    simpa [takenNow, gather] using hnone

/-- Every action of either side keeps the account. -/
theorem Consistent.step (hn : 1 ≤ n)
    (h : Consistent map n trace s) (hstep : Step s e t) : Consistent map n (trace ++ [e]) t := by
  cases hstep with
  | read char hreader => exact h.read hn hreader char
  | left hreader hplace => exact h.left hn hreader hplace
  | took hemulator htake => exact h.took hemulator htake
  | asked now hemulator =>
    refine ⟨h.map_eq, h.capacity, h.bounded, ?_, ?_, ?_, h.applied.concat nofun⟩
    · simpa [taken, accepted, offered] using h.inOrder
    · simpa [charsRead] using h.reads
    · simp [Attends, moment, takenNow, gather]
  | foundNothing hemulator htake =>
    have hattends := h.attends
    rw [hemulator] at hattends
    refine ⟨h.map_eq, h.capacity, h.bounded, ?_, ?_, ?_, h.applied.concat nofun⟩
    · simpa [taken, accepted, offered] using h.inOrder
    · simpa [charsRead] using h.reads
    · simpa [Attends, takenNow, gather] using hattends.2
  | answered hemulator =>
    refine ⟨h.map_eq, h.capacity, h.bounded, ?_, ?_, trivial, h.applied.concat nofun⟩
    · simpa [taken, accepted, offered] using h.inOrder
    · simpa [charsRead] using h.reads

/-- A whole path does. -/
theorem Consistent.path (hn : 1 ≤ n)
    (h : Consistent map n before s) (hpath : Path s trace t) :
    Consistent map n (before ++ trace) t := by
  induction hpath generalizing before with
  | nil => simpa using h
  | @cons s t u e rest hstep _ ih =>
    have hrest := ih (h.step hn hstep)
    rwa [List.append_assoc] at hrest

/-! ## A whole path -/

theorem Path.consistent (hn : 1 ≤ n) (h : Path (start map n) trace s) :
    Consistent map n trace s :=
  consistent_start.path hn h

/-- A reader that does not read goes on not reading. -/
theorem Path.charsRead_eq_nil (h : Path s trace t)
    (hreader : s.reader ≠ .reading) : charsRead trace = [] := by
  induction h with
  | nil => rfl
  | cons hstep _ ih =>
    cases hstep with
    | read char hreading => exact absurd hreading hreader
    | left hleaving hplace => exact ih (by rw [hplace]; nofun)
    | asked | took | foundNothing | answered => exact ih hreader

/-- A reader that is done does not leave again. -/
theorem Path.left_not_mem (h : Path s trace t) (hreader : s.reader = .done) : .left ∉ trace := by
  induction h with
  | nil => exact List.not_mem_nil
  | cons hstep _ ih =>
    cases hstep with
    | read char hreading => exact absurd (hreader.symm.trans hreading) nofun
    | left hleaving hplace => exact absurd (hreader.symm.trans hleaving) nofun
    | asked | foundNothing | answered | took => simpa using ih hreader

/-- Every interleaving of a reader and an emulator at a queue is faithful. -/
theorem nothing_lost_but_surplus (hn : 1 ≤ n)
    (h : Path (start map n) trace s) : Faithful map n trace s := by
  have hs := h.consistent hn
  have hanswers : ∀ before quit after, trace = before ++ .answered quit :: after →
      (quit = true ↔ .quit ∈ takenNow before) := by
    rintro before quit after rfl
    obtain ⟨u, v, hbefore, hstep, -⟩ := h.split
    cases hstep with
    | answered hemulator =>
      have hattends := (hbefore.consistent hn).attends
      rw [hemulator] at hattends
      exact hattends
  constructor
  case bounded => exact hs.bounded
  case inOrder => exact hs.inOrder
  case typed =>
    rw [← offered_keys]
    exact List.filter_sublist.map _
  case reads => exact hs.reads
  case last =>
    rintro before char waiting after rfl hquits
    obtain ⟨u, v, -, hstep, hafter⟩ := h.split
    cases hstep with
    | read char hreader =>
      refine hafter.charsRead_eq_nil ?_
      rw [read_of_quits hquits]
      nofun
  case waits =>
    intro hleaving
    have hfull := hs.isFull_iff hn
    constructor
    · intro hroom
      refine ⟨s.leave, .left hleaving (leave_done_iff.mpr ?_)⟩
      exact Bool.eq_false_iff.mpr (mt hfull.mp (by omega))
    · rintro ⟨t, hstep⟩
      cases hstep with
      | left _ hplace =>
        have hroom := leave_done_iff.mp hplace
        rw [hroom] at hfull
        simp at hfull
        omega
  case leaves =>
    rintro before after rfl
    obtain ⟨u, v, -, hstep, hafter⟩ := h.split
    cases hstep with
    | left _ hplace =>
      exact ⟨hafter.charsRead_eq_nil (by rw [hplace]; nofun), hafter.left_not_mem hplace⟩
  case answers => exact hanswers
  case empties =>
    rintro before rfl
    have hquit : .quit ∈ takenNow before := (hanswers before true [] rfl).mp rfl
    have htaken : .quit ∈ taken (before ++ [.answered true]) := by
      rcases taken_of_gathered before [] hquit with hnil | htaken
      · cases hnil
      · simpa [taken] using htaken
    refine last_of_mem hs.inOrder ?_ htaken
    split
    · exact .inr rfl
    · exact .inl rfl
  case applied => exact hs.applied

/-- The keys on the left of a keyboard. -/
def leftHand : KeyMap :=
  ⟨#v[120, 49, 50, 51, 113, 119, 101, 97, 115, 100, 122, 99, 52, 114, 102, 118], by decide⟩

/-- A key is typed twice and the user quits, at a queue with a single place. -/
def crowded (key : Key) : List (Event Rat) :=
  [.read 119 0, .read 119 1, .read 27 1, .asked 0, .took (.key key), .left, .took .quit,
    .answered true]

/-- The state that this leads to. -/
def uncrowded (key : Key) : Typing Rat where
  keys := {
    map := leftHand
    deadlines := Key.assign Keys.noDeadlines key (Time.add 0 holdTime)
    held := .released
    queue := .empty 1
    stopped := false }
  reader := .done
  emulator := .elsewhere

/-- The first key is taken, the second is lost, and the wish to quit is not. -/
theorem crowded_faithful :
    1 ≤ 1 ∧ ∃ key : Key, typedKey? leftHand 119 = some key ∧
      Path (start leftHand 1) (crowded key) (uncrowded key) ∧
      Faithful leftHand 1 (crowded key) (uncrowded key) ∧
      taken (crowded key) = [.key key, .quit] := by
  have hkey : typedKey? leftHand 119 = some 5 := by decide +kernel
  have hread (s : Typing Rat) (hmap : s.keys.map = leftHand) : s.read 119 =
      { s with keys := { s.keys with queue := s.keys.queue.offer 5 }, reader := .reading } := by
    rw [read_of_not_quits (by decide), hmap, hkey]
    rfl
  have hpath : Path (start leftHand 1) (crowded 5) (uncrowded 5) := by
    refine .cons (.read 119 rfl) ?_
    rw [hread _ rfl]
    refine .cons (.read 119 rfl) ?_
    rw [hread _ rfl]
    refine .cons (.read 27 rfl) (.cons (.asked 0 rfl) (.cons (.took rfl rfl) ?_))
    -- Now there is room for the wish to quit.
    refine .cons (.left rfl rfl) ?_
    refine .cons (.took rfl rfl) (.cons (.answered rfl) ?_)
    exact .nil _
  exact ⟨by decide, 5, hkey, hpath, nothing_lost_but_surplus (by decide) hpath, rfl⟩

end Chip8.Terminal.Typing
