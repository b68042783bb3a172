import Chip8.Proofs.KeyMap.RoundTrip
import Chip8.Proofs.Terminal.Interleaving
import Mathlib.Data.List.TakeWhile

/-!
# Chip8.Proofs.Terminal.Letters — a letter is the same key in both cases

Letters are folded in two places: the codes of a key map when the map is read, and each
character when it is typed. `meantKey?` says which key a character means by the codes alone,
as they are listed by the text of the map. What a reader queues is what is meant, if it has a
queue without a bound: `run_of_unbounded` is its whole run, for any map, and
`typedKey?_eq_meantKey?` ties the map to the codes.
-/

namespace Chip8

namespace KeyMap

variable {codes : Key → Int} {key : Key} {char : Int}

/-- The same character, or the same Latin letter in its two cases. -/
def SameLetter (a b : Int) : Prop :=
  a = b ∨ (97 ≤ a ∧ a ≤ 122 ∧ b = a - 32) ∨ (65 ≤ a ∧ a ≤ 90 ∧ b = a + 32)

/-- Folding makes the two cases of a letter the same, and nothing else. -/
theorem smallLetter_eq_iff {a b : Int} : smallLetter a = smallLetter b ↔ SameLetter a b := by
  unfold smallLetter SameLetter
  split <;> split <;> omega

/-- The key whose code is this character when both are folded. -/
def meantKey? (codes : Key → Int) (char : Int) : Option Key :=
  if char < 0 then none
  else (List.finRange 16).find? fun key => smallLetter (codes key) = smallLetter char

/-- A character means a key if it is not negative and both have the same letter. No other key
comes before it. -/
theorem meantKey?_eq_some_iff (h : (smallLetter ∘ codes).Injective) :
    meantKey? codes char = some key ↔ 0 ≤ char ∧ smallLetter (codes key) = smallLetter char := by
  unfold meantKey?
  by_cases hnegative : char < 0
  · rw [if_pos hnegative]
    exact iff_of_false nofun fun hkey => absurd hnegative (not_lt.mpr hkey.1)
  · rw [if_neg hnegative]
    cases hfound : (List.finRange 16).find? fun key =>
        smallLetter (codes key) = smallLetter char with
    | none =>
      refine iff_of_false nofun fun hkey => ?_
      exact List.find?_eq_none.mp hfound key (List.mem_finRange key) (by simpa using hkey.2)
    -- The key that is found has the letter, and there is no other with it.
    | some found =>
      have hsame : smallLetter (codes found) = smallLetter char := by
        simpa using List.find?_some hfound
      constructor
      · rintro ⟨⟩
        exact ⟨not_lt.mp hnegative, hsame⟩
      · rintro ⟨-, hkey⟩
        -- No two keys are meant by one character.
        rw [h (hsame.trans hkey.symm)]

end KeyMap

namespace Terminal.KeyReader

variable {map : KeyMap} {codes : Key → Int} {q : KeyQueue} {key? : Int → Option Key} {char : Int}

/-! ## What is typed -/

/-- Whether the user wants to quit at last. -/
def GivesUp (chars : List Int) : Prop := ∃ char ∈ chars, Quits char

instance (chars : List Int) : Decidable (GivesUp chars) :=
  inferInstanceAs (Decidable (∃ char ∈ chars, Quits char))

/-- The characters before the user wants to quit. -/
def beforeQuit (chars : List Int) : List Int := chars.takeWhile fun char => ¬ Quits char

/-- The characters after the first that says so. -/
def afterQuit (chars : List Int) : List Int := (chars.dropWhile fun char => ¬ Quits char).tail

/-- What these characters mean if each stands for a key or for none. -/
def meaning (key? : Int → Option Key) (chars : List Int) : List Typed :=
  ((beforeQuit chars).filterMap key?).map .key ++ if GivesUp chars then [.quit] else []

@[simp]
theorem givesUp_cons {rest : List Int} : GivesUp (char :: rest) ↔ Quits char ∨ GivesUp rest := by
  simp [GivesUp]

theorem meaning_of_quits (h : Quits char) (rest : List Int) :
    meaning key? (char :: rest) = [.quit] := by
  simp [meaning, beforeQuit, h]

theorem meaning_of_not_quits (h : ¬ Quits char) (rest : List Int) :
    meaning key? (char :: rest) = ((key? char).map .key).toList ++ meaning key? rest := by
  cases hkey : key? char <;> simp [meaning, beforeQuit, h, hkey]

/-- What the characters for quitting stand for does not matter. -/
theorem meaning_congr {other? : Int → Option Key}
    (h : ∀ char, ¬ Quits char → key? char = other? char) (chars : List Int) :
    meaning key? chars = meaning other? chars := by
  have hbefore : (beforeQuit chars).filterMap key? = (beforeQuit chars).filterMap other? := by
    refine List.filterMap_congr fun char hmem => h char ?_
    simpa using List.mem_takeWhile_imp hmem
  rw [meaning, hbefore, meaning]

/-! ## A whole run -/

/-- A reader with a queue without a bound queues what is typed and leaves as soon as the user
wants to quit. -/
theorem run_of_unbounded (hq : q.capacity = 0) (chars : List Int) :
    run map q chars =
      { queue := { q with items := q.items ++ meaning (typedKey? map) chars }
        unread := afterQuit chars
        state := if GivesUp chars then .done else .reading } := by
  have hroom {items : List Typed} : KeyQueue.isFull { q with items := items } = false := by
    simp [KeyQueue.isFull, hq]
  -- By induction on the characters. A queue without a bound has room at every step.
  induction chars generalizing q with
  | nil => simp [run, meaning, beforeQuit, afterQuit, GivesUp]
  | cons char rest ih =>
    by_cases hquits : Quits char
    · have hleave : leave q = (q.append .quit, .done) := by
        -- The queue has room, so the reader leaves at once.
        rw [leave, if_neg (by rw [hroom]; decide)]
      rw [Typing.run_of_quits hquits, hleave, meaning_of_quits hquits]
      simp [KeyQueue.append, afterQuit, hquits]
    · rw [run, Typing.reader_read, if_neg hquits, meaning_of_not_quits hquits]
      -- A character without a key is passed over, and a key is put behind the others.
      cases hkey : typedKey? map char with
      | none =>
        show run map q rest = _
        rw [ih hq hroom]
        simp [afterQuit, hquits]
      | some key =>
        have hoffer : q.offer key = q.append (.key key) := by
          rw [KeyQueue.offer, if_neg (by rw [hroom]; decide)]
        have hcapacity : (q.append (.key key)).capacity = 0 := hq
        show run map (q.offer key) rest = _
        rw [hoffer, ih hcapacity hroom]
        simp [KeyQueue.append, afterQuit, hquits]

/-- What the reader takes a character for is what is meant by the codes of its map. -/
theorem typedKey?_eq_meantKey? (hmap : map.Sends (KeyMap.smallLetter ∘ codes))
    (h : ¬ Quits char) : typedKey? map char = KeyMap.meantKey? codes char := by
  ext key
  -- A negative character is no key to either.
  rw [KeyMap.meantKey?_eq_some_iff hmap.injective]
  by_cases hnegative : char < 0
  · simp [typedKey?, hnegative]
  · simp only [typedKey?, hnegative, h, or_self, if_false, hmap.key?, Function.comp_apply,
      not_lt.mp hnegative, true_and]

/-- The reader and the key map fold letters in the same way. Where a text lists the codes of
the keys and a map is read from it with letters folded:

* a character that is not negative means the key whose code is the same when both are folded,
  and no character means two keys;
* a reader with a queue without a bound queues the keys that are meant, in their order, up to
  the first character that says that the user wants to quit. If there is one, it queues this
  wish behind the keys, and it reads no character after it;
* the code of a key queues this key and nothing else, in either case of a letter, unless it
  says that the user wants to quit. -/
theorem either_case_types_the_key {text : Text} (hlists : KeyMap.Lists text (List.ofFn codes))
    (hmap : KeyMap.parse text true = .ok map) :
    (∀ char key, KeyMap.meantKey? codes char = some key ↔
        0 ≤ char ∧ KeyMap.smallLetter (codes key) = KeyMap.smallLetter char) ∧
      (∀ (q : KeyQueue) (chars : List Int), q.capacity = 0 →
        run map q chars =
          { queue := { q with items := q.items ++ meaning (KeyMap.meantKey? codes) chars }
            unread := afterQuit chars
            state := if GivesUp chars then .done else .reading }) ∧
      ∀ (q : KeyQueue) (key : Key) (char : Int), q.capacity = 0 → ¬ Quits (codes key) →
        KeyMap.SameLetter (codes key) char →
          (run map q [char]).queue.items = q.items ++ [.key key] := by
  rw [KeyMap.parse_of_lists hlists List.length_ofFn] at hmap
  obtain ⟨hletters, hholds⟩ := KeyMap.made_eq_ok_iff.mp hmap
  rw [List.map_ofFn] at hholds
  have hsends : map.Sends (KeyMap.smallLetter ∘ codes) := KeyMap.sends_of_holds hholds
  have hmeant (char : Int) (key : Key) : KeyMap.meantKey? codes char = some key ↔
      0 ≤ char ∧ KeyMap.smallLetter (codes key) = KeyMap.smallLetter char :=
    KeyMap.meantKey?_eq_some_iff hsends.injective
  have hrun (q : KeyQueue) (chars : List Int) (hq : q.capacity = 0) :
      run map q chars =
        { queue := { q with items := q.items ++ meaning (KeyMap.meantKey? codes) chars }
          unread := afterQuit chars
          state := if GivesUp chars then .done else .reading } := by
    rw [run_of_unbounded hq, meaning_congr fun _ => typedKey?_eq_meantKey? hsends]
  refine ⟨hmeant, hrun, fun q key char hq hquits hsame => ?_⟩
  -- The other case of a letter is no negative number, and nobody quits with a letter.
  have hnonneg : 0 ≤ codes key := List.forall_mem_ofFn_iff.mp (hletters rfl) key
  have hkey : KeyMap.meantKey? codes char = some key := by
    refine (hmeant char key).mpr ⟨?_, KeyMap.smallLetter_eq_iff.mpr hsame⟩
    unfold KeyMap.SameLetter at hsame
    omega
  have hstays : ¬ Quits char := by
    unfold KeyMap.SameLetter at hsame
    unfold Quits at hquits ⊢
    omega
  rw [hrun q [char] hq, meaning_of_not_quits hstays, hkey]
  rfl

/-- The letters `A` to `P`, one for each key. -/
def capitalsText : String := "65,66,67,68,69,70,71,72,73,74,75,76,77,78,79,80"

/-- A small `a` and a capital one are both key `0`, and what is typed after ESC is not read. -/
theorem both_cases_of_a_letter :
    ∃ map, KeyMap.Lists capitalsText (List.ofFn KeyMap.capitals) ∧
      KeyMap.parse capitalsText true = .ok map ∧
      run map (.empty 0) [97, 65, -1, 27, 98] = ⟨⟨0, [.key 0, .key 0, .quit]⟩, [98], .done⟩ := by
  have hlists : KeyMap.Lists capitalsText (List.ofFn KeyMap.capitals) :=
    ⟨_, Text.splitOn_eq_iff.mp rfl, KeyMap.fields_read_iff.mp (by decide +kernel)⟩
  obtain ⟨map, hmade, -⟩ : ∃ map, KeyMap.made true (List.ofFn KeyMap.capitals) = .ok map ∧
      map.Sends (KeyMap.held true ∘ KeyMap.capitals) :=
    KeyMap.made_of_injective (by decide) (by decide)
  have hmap := (KeyMap.parse_of_lists hlists List.length_ofFn).trans hmade
  obtain ⟨-, hrun, -⟩ := either_case_types_the_key hlists hmap
  refine ⟨map, hlists, hmap, ?_⟩
  rw [hrun _ _ rfl]
  rfl

end Terminal.KeyReader

end Chip8
