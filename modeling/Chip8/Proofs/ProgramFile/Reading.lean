import Chip8.ProgramFile

/-!
# Chip8.Proofs.ProgramFile.Reading — what comes of a name

A program is loaded by a name. The system either opens the file with that name or says why
it does not, and a file that is open gives its first bytes. One byte more is asked for than
a program may have:

* `loadNamed_of_readable` — a file that is open is loaded if it is not larger than the limit,
  and else it is reported as too large.
* `loadNamed_of_unreadable` — a file that is not open is reported with its name.
* `loadNamed_of_misnamed` — the system is not even asked for a name that no file can have
  (`Misnamed`), and the failure is none of those that are reported of files.

`loaded_unless_misnamed` puts these together for every name and every answer of the system.
-/

namespace Chip8

namespace FileName

variable {name : Text}

/-- A half that has no byte is no character either. -/
theorem char?_of_isStray {p : CodePoint} (h : isStray p = true) : p.char? = none := by
  cases p with
  | char c => cases h
  | half index => rfl

/-- The search for halves that have no bytes finds some exactly if there are some. -/
theorem stray?_eq_none_iff : stray? name = none ↔ ∀ p ∈ name, isStray p = false := by
  simp only [stray?, Option.map_eq_none_iff, List.head?_eq_none_iff]
  -- The first stray half is found, wherever it is.
  induction name with
  | nil => simp
  | cons p rest ih =>
    cases hp : isStray p with
    | false => simp [hp, ih]
    | true => simp [hp, char?_of_isStray hp]

end FileName

namespace ProgramFile

variable {first : Array UInt8 → Int → Except Error (Array UInt8)}
  {read : Text → Except FileError (Array UInt8)} {name : Text} {bytes : Array UInt8} {limit : Int}

/-! ## Names and reports -/

/-- No file has the name: it holds a half of a character that has no bytes, or the character
that ends names. -/
def Misnamed (name : Text) : Prop :=
  ∃ p ∈ name, FileName.isStray p = true ∨ p = .char '\x00'

instance (name : Text) : Decidable (Misnamed name) :=
  inferInstanceAs (Decidable (∃ p ∈ name, _))

/-- Whether a failure is reported as one of a file: the file cannot be read, or it is too
large for a program. -/
def Error.Reported : Error → Prop
  | unreadable _ _ | tooLarge _ _ => True
  | strayInName _ | nulInName | negativeNumber | noRoom _ | longBlock => False

/-- A name is good if neither search finds anything in it. -/
theorem not_misnamed_iff :
    ¬ Misnamed name ↔ FileName.stray? name = none ∧ name.contains (.char '\x00') = false := by
  rw [FileName.stray?_eq_none_iff]
  simp only [Misnamed, not_exists, not_and, not_or, Bool.not_eq_true, forall_and]
  refine and_congr Iff.rfl ?_
  rw [← Bool.not_eq_true, List.contains_iff_mem]
  exact ⟨fun h hmem => h _ hmem rfl, fun h p hp heq => h (heq ▸ hp)⟩

/-- What is reported of a file holds its name. -/
theorem isInfix_message_unreadable (name : Text) (cause : FileError) :
    name <:+: (Error.unreadable name cause).message :=
  ⟨("Unable to read '" : String), ("': " : String) ++ Text.ofString cause.message, by
    simp [Error.message]⟩

theorem isInfix_message_tooLarge (name : Text) (limit : Int) :
    name <:+: (Error.tooLarge name limit).message :=
  ⟨("'" : String), ("' is larger than the " : String) ++ Text.ofString (toString limit) ++
    (" bytes available for programs" : String), by simp [Error.message]⟩

/-! ## Loading -/

theorem loadNamed_of_misnamed (h : Misnamed name) :
    ∃ e, loadNamed first read name limit = .error e ∧ ¬ e.Reported := by
  -- Halves are looked for first, and the character that ends names after them.
  unfold loadNamed
  cases hstray : FileName.stray? name with
  | some halves => exact ⟨_, rfl, id⟩
  | none =>
    have hnul : name.contains (.char '\x00') = true := by
      refine Bool.of_not_eq_false fun hnone => ?_
      exact not_misnamed_iff.mpr ⟨hstray, hnone⟩ h
    exact ⟨.nulInName, if_pos hnul, id⟩

/-- A file that is not opened is reported with its name and with the reason. -/
theorem loadNamed_of_unreadable {cause : FileError} (h : ¬ Misnamed name)
    (hread : read name = .error cause) :
    loadNamed first read name limit = .error (.unreadable name cause) := by
  obtain ⟨hstray, hnul⟩ := not_misnamed_iff.mp h
  simp only [loadNamed, hstray, hnul, hread]
  rfl

/-- The byte that is asked for beyond the limit tells whether a file is too large. -/
theorem loadNamed_of_readable (h : ¬ Misnamed name) (hread : read name = .ok bytes)
    (hlimit : 0 ≤ limit)
    (hfirst : first bytes (limit + 1) = .ok (bytes.extract 0 (limit + 1).toNat)) :
    loadNamed first read name limit =
      if bytes.size ≤ limit then .ok bytes else .error (.tooLarge name limit) := by
  obtain ⟨hstray, hnul⟩ := not_misnamed_iff.mp h
  have htaken : loadNamed first read name limit =
      if limit < (bytes.extract 0 (limit + 1).toNat).size then .error (.tooLarge name limit)
      else .ok (bytes.extract 0 (limit + 1).toNat) := by
    simp only [loadNamed, hstray, hnul, hread, hfirst, Bool.false_eq_true, if_false]
    simp only [bind, Except.bind]
    split <;> rfl
  rw [htaken, Array.size_extract]
  -- Either the whole file was taken, or the one byte beyond the limit too.
  by_cases hsize : (bytes.size : Int) ≤ limit
  · have hall : bytes.extract 0 (limit + 1).toNat = bytes :=
      Array.extract_eq_self_of_le (by omega)
    rw [if_pos hsize, if_neg (by omega), hall]
  · rw [if_neg hsize, if_pos (by omega)]

/-- The host gives as many bytes of an open file as are asked for, up to the largest room. -/
theorem firstBytes_eq {count : Int} (hcount : 0 ≤ count) (hroom : count ≤ largestRoom) :
    firstBytes bytes count = .ok (bytes.extract 0 count.toNat) := by
  have hlarge : largestRoom = 0x1000000000 := rfl
  have hall : count ≠ -1 := by omega
  -- With the overhead of a block the count still fits.
  have hblock : ¬ (Countable count ∧ ¬ Countable (count + blockOverhead)) := by
    unfold Countable blockOverhead
    omega
  obtain ⟨n, rfl⟩ := Int.eq_ofNat_of_zero_le hcount
  rw [firstBytes, if_neg hall, if_neg hblock, room_natCast (by omega)]
  rfl

/-- On the host a file is loaded exactly if it is not larger than the limit. -/
theorem load_of_readable (h : ¬ Misnamed name) (hread : read name = .ok bytes)
    (hlimit : 0 ≤ limit) (hroom : limit < largestRoom) :
    load read (.named name) limit =
      if bytes.size ≤ limit then .ok bytes else .error (.tooLarge name limit) :=
  loadNamed_of_readable h hread hlimit (firstBytes_eq (by omega) (by omega))

/-! ## All names -/

/-- Loading a program by a name, for every name and whatever the system answers:

* a program is loaded exactly if a file can have the name, the system opens it, and it is not
  larger than the room for programs; it is what the file holds;
* every failure is reported as one of a file, unless no file can have the name;
* such a report holds the name, and if the system does not open the file, its reason. -/
theorem loaded_unless_misnamed (read : Text → Except FileError (Array UInt8)) (name : Text) :
    let loaded := load read (.named name) programRoom
    (∀ program, loaded = .ok program ↔
        ¬ Misnamed name ∧ read name = .ok program ∧ program.size ≤ programRoom) ∧
      (∀ e, loaded = .error e → (e.Reported ↔ ¬ Misnamed name)) ∧
      (∀ e, loaded = .error e → e.Reported → name <:+: e.message) ∧
      ∀ cause, ¬ Misnamed name → read name = .error cause →
        loaded = .error (.unreadable name cause) := by
  intro loaded
  -- The name is looked at first, and then the answer of the system.
  by_cases hname : Misnamed name
  · obtain ⟨e, he, hunreported⟩ : ∃ e, loaded = .error e ∧ ¬ e.Reported :=
      loadNamed_of_misnamed hname
    rw [he]
    refine ⟨?_, ?_, ?_, fun _ h => absurd hname h⟩
    · intro program
      simp [hname]
    · rintro _ ⟨⟩
      simp [hname, hunreported]
    · rintro _ ⟨⟩ hreported
      exact absurd hreported hunreported
  · cases hread : read name with
    | error cause =>
      have he : loaded = .error (.unreadable name cause) := loadNamed_of_unreadable hname hread
      rw [he]
      refine ⟨?_, ?_, ?_, ?_⟩
      · simp
      · rintro _ ⟨⟩
        simp [hname, Error.Reported]
      · rintro _ ⟨⟩ -
        exact isInfix_message_unreadable name cause
      · rintro _ - ⟨⟩
        rfl
    | ok bytes =>
      have hloaded : loaded = if (bytes.size : Int) ≤ programRoom then .ok bytes
          else .error (.tooLarge name programRoom) :=
        load_of_readable hname hread (by decide) (by decide)
      -- The file is open, and its size decides.
      by_cases hsize : (bytes.size : Int) ≤ programRoom
      · rw [hloaded, if_pos hsize]
        refine ⟨?_, ?_, ?_, ?_⟩
        · intro program
          rw [Except.ok.injEq]
          constructor
          · rintro rfl
            exact ⟨hname, rfl, Int.ofNat_le.mp hsize⟩
          · rintro ⟨-, hsame, -⟩
            exact Except.ok.inj hsame
        · rintro _ ⟨⟩
        · rintro _ ⟨⟩
        · rintro _ - ⟨⟩
      · rw [hloaded, if_neg hsize]
        refine ⟨?_, ?_, ?_, ?_⟩
        · rintro program
          constructor
          · rintro ⟨⟩
          · rintro ⟨-, ⟨⟩, hfits⟩
            exact absurd (Int.ofNat_le.mpr hfits) hsize
        · rintro _ ⟨⟩
          simp [hname, Error.Reported]
        · rintro _ ⟨⟩ -
          exact isInfix_message_tooLarge name programRoom
        · rintro _ - ⟨⟩

/-- A name that holds the character which ends names, and one that holds a half of a
character, are refused with no report of a file. -/
theorem nul_in_name_is_unreported :
    load FileTree.empty.read (.named ("a\x00b" : String)) programRoom = .error .nulInName ∧
      load FileTree.empty.read (.named [.half ⟨0, by decide⟩]) programRoom =
        .error (.strayInName ⟨.half ⟨0, by decide⟩, 0, 0⟩) ∧
      ¬ Error.nulInName.Reported ∧
      ¬ ∀ (read : Text → Except FileError (Array UInt8)) (name : Text),
        (∃ program, load read (.named name) programRoom = .ok program) ∨
          ∃ e, load read (.named name) programRoom = .error e ∧ e.Reported := by
  have hnul : load FileTree.empty.read (.named ("a\x00b" : String)) programRoom =
      .error .nulInName := by rfl
  refine ⟨hnul, by rfl, id, ?_⟩
  intro hall
  rcases hall FileTree.empty.read ("a\x00b" : String) with ⟨program, hloaded⟩ | ⟨e, he, hreported⟩
  · rw [hnul] at hloaded
    cases hloaded
  · rw [hnul] at he
    cases he
    exact hreported

end ProgramFile

end Chip8
