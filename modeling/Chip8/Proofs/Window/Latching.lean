import Chip8.Window.Keys
import Chip8.Proofs.History
import Chip8.Proofs.KeyMap.Reading
import Mathlib.Data.List.Induction

/-!
# Chip8.Proofs.Window.Latching — the last event about a key decides

The keys of a window follow its events one after the other, batch by batch. What they come
to is said here without following them:

* `Concerns` — which events are about a key. Losing the focus is about every key, and
  letting ESC go is about none, even where ESC is a key of the map.
* `about` — the events about a key, in their order. The last of them decides whether the
  key is held (`held_foldl`), and without any the key stays as it was.
* `pumpAll` — the keys after several batches, and the answer to each.

`held_follow` is the law of one event, from which `held_foldl` follows by induction on the
events. How the events were put into batches makes no difference (`pumpAll_eq`).
-/

namespace Chip8.Window.Keys

variable {k : Keys} {map : KeyMap} {key : Key} {e : Event}

/-! ## Events about a key -/

/-- The event is about the key. -/
def Concerns (map : KeyMap) (key : Key) : Event → Prop
  | .keyDown code => code = map.codes.get key
  | .keyUp code => code ≠ escape ∧ code = map.codes.get key
  | .focusLost => True
  | .quit | .other _ => False

instance (map : KeyMap) (key : Key) : DecidablePred (Concerns map key)
  | .keyDown code => inferInstanceAs (Decidable (code = map.codes.get key))
  | .keyUp code => inferInstanceAs (Decidable (code ≠ escape ∧ code = map.codes.get key))
  | .focusLost => inferInstanceAs (Decidable True)
  | .quit | .other _ => inferInstanceAs (Decidable False)

/-- The events about a key, in their order. -/
def about (map : KeyMap) (key : Key) (events : List Event) : List Event :=
  events.filter (Concerns map key ·)

/-- Whether an event says that a key went down. -/
def goesDown : Event → Bool
  | .keyDown _ => true
  | _ => false

/-- The event tells that the user wants to quit. -/
def Quits (e : Event) : Prop := e = .quit ∨ e = .keyUp escape

instance (e : Event) : Decidable (Quits e) := inferInstanceAs (Decidable (_ ∨ _))

theorem isQuit_iff : isQuit e = true ↔ Quits e := by
  simp [isQuit, Quits]

theorem getLast?_about_concat (events : List Event) :
    (about map key (events ++ [e])).getLast? =
      if Concerns map key e then some e else (about map key events).getLast? := by
  simp only [about, History.getLast?_filter_concat, decide_eq_true_eq]

/-! ## One event -/

/-- No event changes which codes the keys have. -/
theorem follow_map (k : Keys) (e : Event) : (k.follow e).map = k.map := by
  have hlatch (code : Int) (down : Bool) : (k.latchCode code down).map = k.map := by
    unfold latchCode
    split <;> rfl
  cases e with
  | keyDown code => exact hlatch code true
  | keyUp code =>
    show (if code = escape then k else k.latchCode code false).map = k.map
    split
    · rfl
    · exact hlatch code false
  | quit | focusLost | other => rfl

/-- A code that goes down or comes up changes the key that it belongs to. -/
theorem held_latchCode (k : Keys) (code : Int) (down : Bool) (key : Key) :
    (k.latchCode code down).held.get key =
      if code = k.map.codes.get key then down else k.held.get key := by
  -- The map finds the key for its own code and for no other.
  have hcode : k.map.key? code = some key ↔ code = k.map.codes.get key :=
    KeyMap.key?_eq_some_iff.trans eq_comm
  unfold latchCode
  split
  · next found hfound =>
    rw [hfound, Option.some.injEq] at hcode
    show (Key.assign k.held found down).get key = _
    simp only [Key.get_assign, hcode]
  · next hnone =>
    rw [hnone] at hcode
    rw [if_neg fun h => Option.some_ne_none key (hcode.mpr h).symm]

/-- An event about a key decides whether the key is held; another one leaves it as it is. -/
theorem held_follow (k : Keys) (e : Event) (key : Key) :
    (k.follow e).held.get key = if Concerns k.map key e then goesDown e else k.held.get key := by
  cases e with
  -- Letting ESC go is the wish to quit and concerns no key.
  | keyDown code => exact held_latchCode k code true key
  | keyUp code =>
    show (if code = escape then k else k.latchCode code false).held.get key =
      if code ≠ escape ∧ code = k.map.codes.get key then false else k.held.get key
    by_cases hescape : code = escape
    · simp [hescape]
    · simp [hescape, held_latchCode]
  -- All keys are let go, whatever their codes are.
  | focusLost =>
    show (Vector.replicate 16 false)[key.val] = false
    exact Vector.getElem_replicate key.isLt
  | quit | other => rfl

/-- The wish to quit changes no key. -/
theorem follow_of_quits (h : Quits e) (k : Keys) : k.follow e = k := by
  rcases h with rfl | rfl
  · rfl
  · show (if escape = escape then k else k.latchCode escape false) = k
    exact if_pos rfl

/-! ## Many events -/

theorem foldl_follow_map (k : Keys) (events : List Event) :
    (events.foldl follow k).map = k.map := by
  induction events generalizing k with
  | nil => rfl
  | cons e rest ih => rw [List.foldl_cons, ih, follow_map]

/-- The last event about a key decides whether it is held, and without any it stays as it
was. -/
theorem held_foldl (k : Keys) (events : List Event) (key : Key) :
    (events.foldl follow k).held.get key =
      match (about k.map key events).getLast? with
      | some e => goesDown e
      | none => k.held.get key := by
  induction events using List.reverseRecOn with
  | nil => rfl
  | append_singleton events e ih =>
    -- The last of all events is about the key, or the key is as the others left it.
    rw [List.foldl_append, List.foldl_cons, List.foldl_nil, held_follow, foldl_follow_map,
      getLast?_about_concat]
    split
    · rfl
    · exact ih

/-! ## Batches -/

/-- The keys after some batches, and the answer to each. -/
def pumpAll (k : Keys) : List (List Event) → Keys × List Bool
  | [] => (k, [])
  | batch :: rest =>
    let (k, quit) := k.pump batch
    let (k, answers) := k.pumpAll rest
    (k, quit :: answers)

/-- Batches are followed as if all of their events came at once, and each is answered on
its own. -/
theorem pumpAll_eq (k : Keys) (batches : List (List Event)) :
    k.pumpAll batches =
      (batches.flatten.foldl follow k, batches.map fun batch => batch.any isQuit) := by
  -- By induction on the batches, each of which starts where the one before ended.
  induction batches generalizing k with
  | nil => rfl
  | cons batch rest ih =>
    simp only [pumpAll, pump, ih, List.flatten_cons, List.foldl_append, List.map_cons]

theorem any_isQuit (batch : List Event) : batch.any isQuit = decide (∃ e ∈ batch, Quits e) := by
  rw [Bool.eq_iff_iff, List.any_eq_true, decide_eq_true_iff]
  simp only [isQuit_iff]

/-- A batch may be split anywhere: the keys come to the same, and the user wants to quit if
either part says so. -/
theorem pump_append (k : Keys) (before after : List Event) :
    k.pump (before ++ after) =
      (((k.pump before).1.pump after).1,
        (k.pump before).2 || ((k.pump before).1.pump after).2) := by
  simp only [pump, List.foldl_append, List.any_append]

/-- The events behind the wish to quit are followed as if it was not there. -/
theorem pump_quits (h : Quits e) (k : Keys) (before after : List Event) :
    (k.pump (before ++ e :: after)).1 = (k.pump (before ++ after)).1 := by
  simp only [pump, List.foldl_append, List.foldl_cons, follow_of_quits h]

/-- An event of another kind might as well not be there. -/
theorem pump_other (k : Keys) (before after : List Event) (code : Option Int) :
    k.pump (before ++ .other code :: after) = k.pump (before ++ after) := by
  have hfollow (k : Keys) : k.follow (.other code) = k := rfl
  have hquit : isQuit (.other code) = false := rfl
  simp only [pump, List.foldl_append, List.foldl_cons, List.any_append, List.any_cons, hfollow,
    hquit, Bool.false_or]

/-- What batches of events come to, from any keys:

* a key is held exactly if the last event about it was that it went down, or if there was
  none and it was held before;
* a batch is answered with the wish to quit exactly if it holds one;
* the events behind such a wish still count, and events of other kinds never do;
* a batch that is split comes to the same keys, and is answered by either part. -/
theorem last_event_decides (k : Keys) (batches : List (List Event)) :
    (∀ key, (k.pumpAll batches).1.held.get key =
        match (about k.map key batches.flatten).getLast? with
        | some e => goesDown e
        | none => k.held.get key) ∧
      (k.pumpAll batches).2 = batches.map (fun batch => decide (∃ e ∈ batch, Quits e)) ∧
      ∀ before after : List Event,
        (∀ e, Quits e → (k.pump (before ++ e :: after)).1 = (k.pump (before ++ after)).1) ∧
          (∀ code, k.pump (before ++ .other code :: after) = k.pump (before ++ after)) ∧
          k.pump (before ++ after) =
            (((k.pump before).1.pump after).1,
              (k.pump before).2 || ((k.pump before).1.pump after).2) := by
  refine ⟨fun key => ?_, ?_, fun before after => ?_⟩
  · rw [pumpAll_eq]
    exact held_foldl k batches.flatten key
  · simp only [pumpAll_eq, any_isQuit]
  · exact ⟨fun e he => pump_quits he k before after, pump_other k before after,
      pump_append k before after⟩

end Chip8.Window.Keys
