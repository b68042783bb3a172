import Chip8.Proofs.Machine.Invariant
import Chip8.Proofs.ProgramFile.Reading

/-!
# Chip8.Proofs.Machine.Loading — files and machines agree on the room for programs

The size of a program is looked at twice: when its file is read, with one byte more than the
limit asked for, and again when a machine loads it. Both must draw the line at the same
place, and what the machine accepts must have its place in memory.

* `load_eq_ok_iff` — a machine accepts just the programs that fit, and lays them over memory
  where programs start.
* `load_eq_error` — a program that a machine refuses is too large.
* `file_and_machine_agree` — so a file is loaded exactly if a machine accepts what it holds.
-/

namespace Chip8.Machine

open ProgramFile (Misnamed load_of_readable loadNamed_of_readable)

variable {m m' : Machine} {program : Array UInt8}

/-- A machine accepts a program that fits, and changes in memory only. -/
theorem load_eq_ok_iff (hsize : m.memory.size = memorySize) :
    m.load program = .ok m' ↔ program.size ≤ programRoom ∧
      m' = { m with memory := m.memory.storing programStart program.toList } := by
  -- A program fits or it does not, and loading is known in both cases.
  rcases Nat.lt_or_ge programRoom program.size with hlarge | hfits
  · rw [load_of_too_large hlarge]
    constructor
    · rintro ⟨⟩
    · rintro ⟨hfits, -⟩
      exact absurd hlarge (Nat.not_lt.mpr hfits)
  · rw [load_of_fits hsize hfits, Except.ok.injEq]
    exact ⟨fun h => ⟨hfits, h.symm⟩, fun h => h.2.symm⟩

/-- A machine refuses only what is too large. -/
theorem load_eq_error (hsize : m.memory.size = memorySize) {e : LoadError}
    (h : m.load program = .error e) : programRoom < program.size ∧ e = .tooLarge program.size := by
  rcases Nat.lt_or_ge programRoom program.size with hlarge | hfits
  · rw [load_of_too_large hlarge] at h
    cases h
    exact ⟨hlarge, rfl⟩
  · rw [load_of_fits hsize hfits] at h
    cases h

/-- A program that fits has its place in memory. -/
theorem laidOver_of_fits (hsize : m.memory.size = memorySize) (h : program.size ≤ programRoom) :
    m.memory.LaidOver programStart program.toList
      (m.memory.storing programStart program.toList) := by
  refine Memory.laidOver_storing (Int.natCast_nonneg _) ?_
  rw [hsize, Array.length_toList]
  simp only [programRoom, memorySize, programStart] at h ⊢
  omega

/-- Files and machines agree on the room for programs. For every file that the system opens
and every machine whose memory has its size,

* if an open file gives its first bytes, as many as are asked for, then with every limit it
  is loaded as it is unless it is larger than the limit, and else reported as too large; so
  it is on the host with limits below the largest room;
* the file is loaded with the room for programs as its limit exactly if the machine accepts
  what it holds;
* what is accepted is found where programs start, and all else of the machine is as it was;
* a machine that refuses is left as it was. -/
theorem file_and_machine_agree {read : Text → Except FileError (Array UInt8)} {name : Text}
    {bytes : Array UInt8} {m : Machine} (hname : ¬ Misnamed name) (hread : read name = .ok bytes)
    (hsize : m.memory.size = memorySize) :
    (∀ (first : Array UInt8 → Int → Except ProgramFile.Error (Array UInt8)) (limit : Int),
        (∀ count, 0 ≤ count → first bytes count = .ok (bytes.extract 0 count.toNat)) →
        0 ≤ limit → ProgramFile.loadNamed first read name limit =
          if bytes.size ≤ limit then .ok bytes else .error (.tooLarge name limit)) ∧
      (∀ limit : Int, 0 ≤ limit → limit < largestRoom →
        ProgramFile.load read (.named name) limit =
          if bytes.size ≤ limit then .ok bytes else .error (.tooLarge name limit)) ∧
      ((∃ program, ProgramFile.load read (.named name) programRoom = .ok program) ↔
        ∃ m', m.load bytes = .ok m') ∧
      (∀ m', m.load bytes = .ok m' →
        m.memory.LaidOver programStart bytes.toList m'.memory ∧
          m' = { m with memory := m'.memory }) ∧
      ∀ e, m.load bytes = .error e →
        e = .tooLarge bytes.size ∧ m.perform (.load bytes) = (m, some (.load e)) := by
  have hhost (limit : Int) (hlimit : 0 ≤ limit) (hroom : limit < largestRoom) :
      ProgramFile.load read (.named name) limit =
        if bytes.size ≤ limit then .ok bytes else .error (.tooLarge name limit) :=
    load_of_readable hname hread hlimit hroom
  refine ⟨?_, hhost, ?_, ?_, ?_⟩
  · -- An open file is asked for one byte more than the limit, which is never negative.
    intro first limit hfirst hlimit
    exact loadNamed_of_readable hname hread hlimit (hfirst _ (by omega))
  · rw [hhost programRoom (by decide) (by decide)]
    -- Both sides of the boundary are the same for the file and for the machine.
    rcases Nat.lt_or_ge programRoom bytes.size with hlarge | hfits
    · rw [if_neg (by omega), load_of_too_large hlarge]
      constructor
      · rintro ⟨_, ⟨⟩⟩
      · rintro ⟨_, ⟨⟩⟩
    · rw [if_pos (by omega), load_of_fits hsize hfits]
      exact ⟨fun _ => ⟨_, rfl⟩, fun _ => ⟨_, rfl⟩⟩
  · intro m' hload
    obtain ⟨hfits, rfl⟩ := (load_eq_ok_iff hsize).mp hload
    exact ⟨laidOver_of_fits hsize hfits, rfl⟩
  · intro e hload
    obtain ⟨hlarge, rfl⟩ := load_eq_error hsize hload
    exact ⟨rfl, perform_load_of_too_large hlarge m⟩

/-- A file that fills the room is loaded and accepted, and a file with one byte more is
neither. An open file that gives whatever is asked for is loaded with a limit that is beyond
every room. -/
theorem boundary_is_shared :
    let zeros (size : Nat) : Text → Except FileError (Array UInt8) :=
      fun _ => .ok (Array.replicate size 0)
    let first (bytes : Array UInt8) (count : Int) : Except ProgramFile.Error (Array UInt8) :=
      .ok (bytes.extract 0 count.toNat)
    let loaded (size : Nat) := ProgramFile.load (zeros size) (.named "prog.ch8") programRoom
    ¬ Misnamed "prog.ch8" ∧ (fresh (.ofList [])).memory.size = memorySize ∧
      loaded programRoom = .ok (Array.replicate programRoom 0) ∧
      (∃ m', (fresh (.ofList [])).load (Array.replicate programRoom 0) = .ok m') ∧
      loaded (programRoom + 1) = .error (.tooLarge "prog.ch8" programRoom) ∧
      (¬ ∃ m', (fresh (.ofList [])).load (Array.replicate (programRoom + 1) 0) = .ok m') ∧
      ProgramFile.loadNamed first (zeros (programRoom + 1)) "prog.ch8" 0x100000000000000000 =
        .ok (Array.replicate (programRoom + 1) 0) := by
  intro zeros first loaded
  have hname : ¬ Misnamed "prog.ch8" := by decide
  have hsize : (fresh (.ofList [])).memory.size = memorySize := (Bounded.fresh _).memory
  obtain ⟨-, hfull, hfullAgree, -, -⟩ := file_and_machine_agree hname
    (rfl : zeros programRoom "prog.ch8" = .ok (Array.replicate programRoom 0)) hsize
  obtain ⟨hwide, hover, hoverAgree, -, -⟩ := file_and_machine_agree hname
    (rfl : zeros (programRoom + 1) "prog.ch8" = .ok (Array.replicate (programRoom + 1) 0)) hsize
  have hfullLoaded : loaded programRoom = .ok (Array.replicate programRoom 0) := by
    show ProgramFile.load (zeros programRoom) _ _ = _
    rw [hfull programRoom (by decide) (by decide), Array.size_replicate, if_pos (Int.le_refl _)]
  have hoverLoaded : loaded (programRoom + 1) = .error (.tooLarge "prog.ch8" programRoom) := by
    show ProgramFile.load (zeros (programRoom + 1)) _ _ = _
    rw [hover programRoom (by decide) (by decide), Array.size_replicate, if_neg (by omega)]
  -- The room for programs is the first limit at which the two could part.
  refine ⟨hname, hsize, hfullLoaded, hfullAgree.mp ⟨_, hfullLoaded⟩, hoverLoaded, ?_, ?_⟩
  · intro haccepted
    obtain ⟨program, hprogram⟩ := hoverAgree.mpr haccepted
    cases hoverLoaded.symm.trans hprogram
  · rw [hwide first 0x100000000000000000 (fun _ _ => rfl) (by decide), Array.size_replicate,
      if_pos (by decide)]

end Chip8.Machine
