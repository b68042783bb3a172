import Chip8.Proofs.History
import Chip8.Proofs.Terminal.Typing
import Mathlib.Data.List.Induction

/-!
# Chip8.Proofs.Terminal.Holding — how long a key counts as held

A key of a terminal counts as held until its deadline. Deadlines are pushed by one call,
read by another and never cleared but by a third, while items arrive in between:

* `Act` — an arrival or a call, and `history` what was done and on which keys.
* `taken` — what a call takes from the queue: everything up to the wish to quit.
* `LastTaken` — the moment of the latest call that took a key, with no release since.

`deadline_act` is the law of one act, and `Dated.history` follows from it by induction on
the acts. No act about other keys makes a difference (`Alike`).
-/

namespace Chip8.Terminal.Keys

variable {τ : Type} {k k' : Keys τ} {key : Key} {items : List Typed}

/-! ## What a call takes -/

/-- The items up to the wish to quit. -/
def upToQuit : List Typed → List Typed
  | [] => []
  | .quit :: _ => [.quit]
  | .key key :: rest => .key key :: upToQuit rest

/-- What the next call takes from the queue. -/
def taken (k : Keys τ) : List Typed := upToQuit k.queue.items

/-- Without a wish to quit all items are taken. -/
theorem upToQuit_keys (keys : List Key) : upToQuit (keys.map .key) = keys.map .key := by
  induction keys with
  | nil => rfl
  | cons key rest ih => exact congrArg (.key key :: ·) ih

/-- Nothing behind the wish to quit is taken. -/
theorem upToQuit_keys_quit (keys : List Key) (rest : List Typed) :
    upToQuit (keys.map .key ++ .quit :: rest) = keys.map .key ++ [.quit] := by
  induction keys with
  | nil => rfl
  | cons key keys ih => exact congrArg (.key key :: ·) ih

section Drain

variable (deadline : τ) (deadlines : Vector τ 16) (items)

/-- What is not taken stays in the queue. -/
theorem upToQuit_append_drain :
    upToQuit items ++ (drain deadline deadlines items).2.1 = items := by
  -- By induction on the items. The wish to quit ends both at the same place.
  induction items generalizing deadlines with
  | nil => rfl
  | cons item rest ih =>
    cases item with
    | quit => rfl
    | key key => exact congrArg (.key key :: ·) (ih _)

/-- A call answers that the user wants to quit exactly if it took that wish. -/
theorem quit_drain_iff :
    (drain deadline deadlines items).2.2 = true ↔ .quit ∈ upToQuit items := by
  induction items generalizing deadlines with
  | nil => simp [drain, upToQuit]
  | cons item rest ih =>
    cases item with
    | quit => simp [drain, upToQuit]
    | key key => simp [drain, upToQuit, ih]

/-- The keys that are taken have their deadlines pushed, also those before the wish to
quit, and no others. -/
theorem get_drain (key : Key) :
    (drain deadline deadlines items).1.get key =
      if .key key ∈ upToQuit items then deadline else deadlines.get key := by
  induction items generalizing deadlines with
  | nil => simp [drain, upToQuit]
  | cons item rest ih =>
    cases item with
    | quit => simp [drain, upToQuit]
    | key other =>
      -- A key that comes again gets the same deadline, so it does not matter which one sets it.
      rw [drain, ih, Key.get_assign, upToQuit]
      by_cases hrest : .key key ∈ upToQuit rest
      · simp [hrest]
      · simp [hrest, eq_comm]

end Drain

/-! ## Acts -/

/-- What may be done with the keys of a terminal. -/
inductive Act (τ : Type) where
  /-- An item arrives in the queue. -/
  | arrive (item : Typed)
  /-- A call takes what was typed. -/
  | pump (now : τ)
  /-- A call asks which keys are held. -/
  | ask (now : τ)
  /-- A call lets every key go. -/
  | release

/-- An act, and the keys right before it. -/
structure Moment (τ : Type) where
  keys : Keys τ
  act : Act τ

/-- At this moment a call takes the key, or all keys are let go. -/
def Moment.Settles (key : Key) (m : Moment τ) : Prop :=
  match m.act with
  | .pump _ => .key key ∈ m.keys.taken
  | .release => True
  | .arrive _ | .ask _ => False

/-- The latest call that took the key was made at the moment `p`, and no key was let go
since. -/
def LastTaken (key : Key) (moments : List (Moment τ)) (p : τ) : Prop :=
  ∃ before m after, moments = before ++ m :: after ∧
    (m.act = .pump p ∧ .key key ∈ m.keys.taken) ∧ ∀ later ∈ after, ¬ later.Settles key

variable {moments : List (Moment τ)} {m : Moment τ} {p : τ}

theorem not_lastTaken_nil : ¬ LastTaken key ([] : List (Moment τ)) p := History.not_hasLast_nil

/-- The last moment settles which call was the latest, or it was one before. -/
theorem lastTaken_concat :
    LastTaken key (moments ++ [m]) p ↔
      (m.act = .pump p ∧ .key key ∈ m.keys.taken) ∨
        (¬ m.Settles key ∧ LastTaken key moments p) := History.hasLast_concat

/-! ## Items that concern a key -/

/-- The item is no other key. -/
def concerns (key : Key) : Typed → Bool
  | .quit => true
  | .key other => other == key

/-- The act is not that another key arrives. -/
def Act.concerns (key : Key) : Act τ → Bool
  | .arrive item => Keys.concerns key item
  | _ => true

/-- What the keys know of one key is alike: its deadline, and the items that concern it. -/
structure Alike (key : Key) (k k' : Keys τ) : Prop where
  deadline : k.deadlines.get key = k'.deadlines.get key
  items : k.queue.items.filter (concerns key) = k'.queue.items.filter (concerns key)

/-- Leaving out other keys does not move the wish to quit. -/
theorem filter_upToQuit (key : Key) (items : List Typed) :
    (upToQuit items).filter (concerns key) = upToQuit (items.filter (concerns key)) := by
  induction items with
  | nil => rfl
  | cons item rest ih =>
    cases item with
    | quit => rfl
    | key other =>
      cases hother : concerns key (.key other) with
      | true => simp [upToQuit, hother, ih]
      | false => simp [upToQuit, hother, ih]

/-- The same is taken of what concerns the key. -/
theorem Alike.filter_taken (h : Alike key k k') :
    k.taken.filter (concerns key) = k'.taken.filter (concerns key) := by
  rw [taken, taken, filter_upToQuit, filter_upToQuit, h.items]

/-- The key is taken from both or from neither. -/
theorem Alike.mem_taken_iff (h : Alike key k k') : .key key ∈ k.taken ↔ .key key ∈ k'.taken := by
  have hmem (k : Keys τ) : .key key ∈ k.taken ↔ .key key ∈ k.taken.filter (concerns key) := by
    rw [List.mem_filter, concerns, beq_self_eq_true, and_iff_left rfl]
  rw [hmem, hmem k', h.filter_taken]

/-! ## Calls -/

variable [Time τ] {g : τ}

/-- What a call takes, and how it answers. -/
theorem items_pump (k : Keys τ) (now : τ) :
    k.taken ++ (k.pump now).1.queue.items = k.queue.items ∧
      ((k.pump now).2 = true ↔ .quit ∈ k.taken) :=
  ⟨upToQuit_append_drain _ _ _, quit_drain_iff _ _ _⟩

theorem deadline_pump (k : Keys τ) (now : τ) (key : Key) :
    (k.pump now).1.deadlines.get key =
      if .key key ∈ k.taken then Time.add now holdTime else k.deadlines.get key :=
  get_drain _ _ _ key

/-- A key is held before its deadline. -/
theorem get_states (k : Keys τ) (now : τ) (key : Key) :
    (k.states now).2.get key = Time.lt now (k.deadlines.get key) :=
  Vector.getElem_map _ _

/-- The keys after an act. -/
def act (k : Keys τ) : Act τ → Keys τ
  | .arrive item => { k with queue := k.queue.append item }
  | .pump now => (k.pump now).1
  | .ask now => (k.states now).1
  | .release => k.release

/-- The keys after several acts. -/
def actAll (k : Keys τ) (acts : List (Act τ)) : Keys τ := acts.foldl act k

/-- The moments of several acts. -/
def history (k : Keys τ) : List (Act τ) → List (Moment τ)
  | [] => []
  | a :: rest => ⟨k, a⟩ :: (k.act a).history rest

/-- The last moment is that of the last act. -/
theorem history_concat (k : Keys τ) (acts : List (Act τ)) (a : Act τ) :
    k.history (acts ++ [a]) = k.history acts ++ [⟨k.actAll acts, a⟩] := by
  induction acts generalizing k with
  | nil => rfl
  | cons first rest ih => exact congrArg (⟨k, first⟩ :: ·) (ih _)

theorem actAll_concat (k : Keys τ) (acts : List (Act τ)) (a : Act τ) :
    k.actAll (acts ++ [a]) = (k.actAll acts).act a := List.foldl_append

/-! ## Deadlines -/

/-- The deadline of a key is told by the latest call that took it. Without one it has
passed from the start. -/
structure Dated (key : Key) (moments : List (Moment τ)) (deadline : τ) : Prop where
  pushed : ∀ p, LastTaken key moments p → deadline = Time.add p holdTime
  passed : (∀ p, ¬ LastTaken key moments p) → deadline = Time.zero

/-- What an act makes of a deadline. -/
theorem deadline_act (k : Keys τ) (a : Act τ) (key : Key) :
    (k.act a).deadlines.get key =
      match a with
      | .pump now => if .key key ∈ k.taken then Time.add now holdTime else k.deadlines.get key
      | .release => Time.zero
      | .arrive _ | .ask _ => k.deadlines.get key := by
  cases a with
  | pump now => exact deadline_pump k now key
  | release => exact Vector.getElem_replicate key.isLt
  | arrive item | ask now => rfl

/-- An act that settles nothing keeps what a deadline tells. -/
theorem Dated.unsettled {deadline : τ} (h : Dated key moments deadline)
    (hsettles : ¬ m.Settles key) (hact : ∀ p, m.act = .pump p → .key key ∉ m.keys.taken) :
    Dated key (moments ++ [m]) deadline := by
  have hsame (p : τ) : LastTaken key (moments ++ [m]) p ↔ LastTaken key moments p := by
    rw [lastTaken_concat]
    constructor
    · rintro (⟨hpump, htaken⟩ | ⟨-, hlast⟩)
      · exact absurd htaken (hact p hpump)
      · exact hlast
    · intro hlast
      exact .inr ⟨hsettles, hlast⟩
  refine ⟨fun p hlast => h.pushed p ((hsame p).mp hlast), fun hnone => h.passed fun p hlast => ?_⟩
  exact hnone p ((hsame p).mpr hlast)

/-- One act keeps what the deadline tells. -/
theorem Dated.act (h : Dated key moments (k.deadlines.get key)) (a : Act τ) :
    Dated key (moments ++ [⟨k, a⟩]) ((k.act a).deadlines.get key) := by
  have hdeadline := deadline_act k a key
  cases a with
  -- What arrives and what is asked settles nothing.
  | arrive item => exact h.unsettled id nofun
  | ask now => exact h.unsettled id nofun
  -- Letting go settles all keys, and no call has taken one since.
  | release =>
    refine ⟨fun p hlast => ?_, fun _ => hdeadline⟩
    rcases lastTaken_concat.mp hlast with ⟨hpump, -⟩ | ⟨hsettles, -⟩
    · cases hpump
    · exact absurd trivial hsettles
  -- A call that takes the key is now the latest. One that does not leaves all as it was.
  | pump now =>
    by_cases htaken : .key key ∈ k.taken
    · refine ⟨fun p hlast => ?_, fun hnone => ?_⟩
      · rcases lastTaken_concat.mp hlast with ⟨hpump, -⟩ | ⟨hsettles, -⟩
        · cases hpump
          exact hdeadline.trans (if_pos htaken)
        · exact absurd htaken hsettles
      · exact absurd (lastTaken_concat.mpr (.inl ⟨rfl, htaken⟩)) (hnone now)
    · have hsame : (k.act (.pump now)).deadlines.get key = k.deadlines.get key :=
        hdeadline.trans (if_neg htaken)
      rw [hsame]
      exact h.unsettled htaken fun _ _ => htaken

/-- What was done so far tells every deadline. -/
theorem Dated.history (hk : k.deadlines = noDeadlines) (acts : List (Act τ)) (key : Key) :
    Dated key (k.history acts) ((k.actAll acts).deadlines.get key) := by
  -- The latest call stands at the end of the history, so the induction goes from there.
  induction acts using List.reverseRecOn with
  | nil =>
    refine ⟨fun p hlast => absurd hlast not_lastTaken_nil, fun _ => ?_⟩
    show k.deadlines.get key = Time.zero
    rw [hk]
    exact Vector.getElem_replicate key.isLt
  | append_singleton acts a ih =>
    rw [history_concat, actAll_concat]
    exact ih.act a

/-- At a moment that is not negative, a key is held exactly while the deadline of the latest
call that took it lies ahead. -/
theorem held_iff (hk : k.deadlines = noDeadlines) (hg : Time.lt g Time.zero = false)
    (acts : List (Act τ)) (key : Key) :
    ((k.actAll acts).states g).2.get key = true ↔
      ∃ p, LastTaken key (k.history acts) p ∧ Time.lt g (Time.add p holdTime) = true := by
  have hdated := Dated.history hk acts key
  rw [get_states]
  constructor
  · intro hheld
    by_cases hlast : ∃ p, LastTaken key (k.history acts) p
    · obtain ⟨p, hlast⟩ := hlast
      rw [hdated.pushed p hlast] at hheld
      exact ⟨p, hlast, hheld⟩
    · -- The deadline is still the first one, and that has passed.
      rw [hdated.passed (not_exists.mp hlast), hg] at hheld
      cases hheld
  · rintro ⟨p, hlast, hahead⟩
    rw [hdated.pushed p hlast]
    exact hahead

/-! ## Other keys -/

/-- What is left after a call is alike if it was before. -/
theorem Alike.filter_left (h : Alike key k k') (now : τ) :
    (k.pump now).1.queue.items.filter (concerns key) =
      (k'.pump now).1.queue.items.filter (concerns key) := by
  have hsplit (k : Keys τ) :
      k.taken.filter (concerns key) ++ (k.pump now).1.queue.items.filter (concerns key) =
        k.queue.items.filter (concerns key) := by
    rw [← List.filter_append, (items_pump k now).1]
  -- What is taken is alike, so what remains of items that are alike is too.
  have hboth := (hsplit k).trans (h.items.trans (hsplit k').symm)
  rw [h.filter_taken] at hboth
  exact List.append_cancel_left hboth

/-- An act of any kind keeps what is alike. -/
theorem Alike.act (h : Alike key k k') (a : Act τ) : Alike key (k.act a) (k'.act a) where
  deadline := by
    rw [deadline_act, deadline_act, h.deadline]
    -- The same call takes the key from both, if it takes it at all.
    simp only [h.mem_taken_iff]
  items := by
    cases a with
    | arrive item => simp [Keys.act, KeyQueue.append, h.items]
    | pump now => exact h.filter_left now
    | ask now | release => exact h.items

/-- Another key that arrives makes no difference. -/
theorem Alike.skip (h : Alike key k k') {a : Act τ} (ha : a.concerns key = false) :
    Alike key (k.act a) k' := by
  cases a with
  | arrive item =>
    have hitem : concerns key item = false := ha
    exact ⟨h.deadline, by simp [Keys.act, KeyQueue.append, h.items, hitem]⟩
  | pump | ask | release => cases ha

/-- Nothing that concerns other keys alone makes a difference. -/
theorem Alike.actAll (h : Alike key k k') (acts : List (Act τ)) :
    Alike key (k.actAll acts) (k'.actAll (acts.filter (Act.concerns key))) := by
  -- An act that only concerns other keys is left out on the right.
  induction acts generalizing k k' with
  | nil => exact h
  | cons a rest ih =>
    cases ha : a.concerns key with
    | true =>
      rw [List.filter_cons_of_pos ha]
      exact ih (h.act a)
    | false =>
      rw [List.filter_cons_of_neg (Bool.eq_false_iff.mp ha)]
      exact ih (h.skip ha)

/-- So acts that differ only in the arrival of other keys get the same answers. -/
theorem states_eq_of_filter {acts acts' : List (Act τ)} (k : Keys τ) (g : τ)
    (h : acts.filter (Act.concerns key) = acts'.filter (Act.concerns key)) :
    ((k.actAll acts).states g).2.get key = ((k.actAll acts').states g).2.get key := by
  have hself : Alike key k k := ⟨rfl, rfl⟩
  have hdeadline := (hself.actAll acts).deadline
  rw [h] at hdeadline
  rw [get_states, get_states, hdeadline, (hself.actAll acts').deadline]

/-! ## All histories -/

/-- What a call does at a moment. -/
structure Takes (k : Keys τ) (now : τ) : Prop where
  /-- What it takes was the front of the queue. -/
  inOrder : k.taken ++ (k.pump now).1.queue.items = k.queue.items
  /-- If only keys wait, it takes them all. -/
  empties : ∀ keys : List Key, k.queue.items = keys.map .key →
    k.taken = keys.map .key ∧ (k.pump now).2 = false
  /-- It takes no more than the wish to quit, and the keys before that are held all the
  same. -/
  quits : ∀ (keys : List Key) (rest : List Typed), k.queue.items = keys.map .key ++ .quit :: rest →
    k.taken = keys.map .key ++ [.quit] ∧ (k.pump now).2 = true ∧
      ∀ key ∈ keys, ∀ g, ((k.pump now).1.states g).2.get key = Time.lt g (Time.add now holdTime)

/-- Every call does this, at any moment. -/
theorem takes_pump (k : Keys τ) (now : τ) : Takes k now := by
  obtain ⟨hinOrder, hquit⟩ := items_pump k now
  refine ⟨hinOrder, fun keys hitems => ?_, fun keys rest hitems => ?_⟩
  · -- Without a wish to quit the queue is emptied, and the answer says so.
    have htaken : k.taken = keys.map .key := by rw [taken, hitems, upToQuit_keys]
    refine ⟨htaken, Bool.eq_false_iff.mpr fun htrue => ?_⟩
    have hmem := hquit.mp htrue
    rw [htaken] at hmem
    simp at hmem
  · -- The keys in front of the wish are among what is taken.
    have htaken : k.taken = keys.map .key ++ [.quit] := by
      rw [taken, hitems, upToQuit_keys_quit]
    refine ⟨htaken, hquit.mpr ?_, fun key hkey g => ?_⟩
    · rw [htaken]
      exact List.mem_append_right _ List.mem_cons_self
    · have hmem : .key key ∈ k.taken := by
        rw [htaken]
        exact List.mem_append_left _ (List.mem_map_of_mem hkey)
      rw [get_states, deadline_pump, if_pos hmem]

/-- From the start on, whatever arrives and whichever calls are made at which moments, a
key is held at a moment `g` that is not negative exactly if a call took it since the keys
were last let go, and `g` lies before the end of the hold time after the latest such call.
A call takes the queue in its order up to the wish to quit, and latches every key that it
takes. Other keys never make a difference. -/
theorem keys_are_held_for_their_time (map : KeyMap) (chars : List Int) (acts : List (Act τ))
    (key : Key) (g : τ) (hg : Time.lt g Time.zero = false) :
    let k := start map chars
    (((k.actAll acts).states g).2.get key = true ↔
        ∃ p, LastTaken key (k.history acts) p ∧ Time.lt g (Time.add p holdTime) = true) ∧
      (∀ moment ∈ k.history acts, ∀ now, moment.act = .pump now → Takes moment.keys now) ∧
      ∀ acts', acts.filter (Act.concerns key) = acts'.filter (Act.concerns key) →
        ((k.actAll acts).states g).2.get key = ((k.actAll acts').states g).2.get key := by
  refine ⟨held_iff rfl hg acts key, ?_, ?_⟩
  · intro moment _ now _
    exact takes_pump moment.keys now
  · intro acts' hsame
    exact states_eq_of_filter _ g hsame

/-- A key is typed, and then the user wants to quit. -/
def lastWords (key : Key) : List (Act Rat) := [.arrive (.key key), .arrive .quit, .pump 1]

/-- The key is still held after a tenth of a second. -/
theorem lastWords_held :
    Time.lt (11 / 10 : Rat) Time.zero = false ∧
      (((start Typing.leftHand []).actAll (lastWords 5)).states (11 / 10)).2.get 5 = true := by
  have hnow : Time.lt (11 / 10 : Rat) Time.zero = false := by decide +kernel
  have hiff := (keys_are_held_for_their_time Typing.leftHand [] (lastWords 5) 5 _ hnow).1
  have htaken : LastTaken 5 ((start Typing.leftHand []).history (lastWords 5)) 1 :=
    ⟨[_, _], _, [], rfl, ⟨rfl, List.mem_cons_self⟩, fun _ hm => (List.not_mem_nil hm).elim⟩
  exact ⟨hnow, hiff.mpr ⟨1, htaken, by decide +kernel⟩⟩

end Chip8.Terminal.Keys
