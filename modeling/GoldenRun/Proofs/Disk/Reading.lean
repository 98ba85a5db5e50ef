import GoldenRun.Disk.Operations
import Mathlib.Logic.Basic

/-!
# What is read at a path

A path leads to a file, to a directory, or nowhere; only a file can be read.

* `isFile_eq_false_iff`, `isFile_eq_false_iff_refuses`: the ways in which a path leads to no file,
  and what the system says of each of them
* `readText_of_hasEntry`: what is there but cannot be read is a directory
-/

namespace GoldenRun

open GoldenRun.Text

namespace Disk

variable {disk : Disk} {cwd : Location} {path : String} {error : DiskError}

/-- Whether a path leads to a directory. -/
def LeadsToDirectory (disk : Disk) (cwd : Location) (path : String) : Prop :=
  ∃ location, disk.find cwd path = .ok (location, .directory)

/-- A path that leads to no file leads to nothing or to a directory. -/
theorem isFile_eq_false_iff :
    disk.isFile cwd path = false ↔
      disk.hasEntry cwd path = false ∨ disk.LeadsToDirectory cwd path := by
  unfold isFile hasEntry LeadsToDirectory
  cases hfind : disk.find cwd path with
  | error fault => simp [Except.toOption]
  | ok place =>
    obtain ⟨location, entry⟩ := place
    cases entry with
    | directory => simp [Except.toOption]
    | file bytes executable => simp [Except.toOption]

/-- What the system says of a path that is to be read and leads to no file. -/
inductive Refuses (disk : Disk) (cwd : Location) (path : String) : DiskError → Prop where
  /-- There cannot be such a path. -/
  | nul (hnul : hasNul path = true) : Refuses disk cwd path (.nulInPath "path" path)
  /-- The path leads nowhere, and it is named. -/
  | lost {fault : DiskFault} (hnul : hasNul path = false)
    (hfind : disk.find cwd path = .error fault) :
    Refuses disk cwd path (.failed fault "open" (some path) none)
  /-- The path leads to a directory, and it is not named. -/
  | directory {location : Location} (hnul : hasNul path = false)
    (hfind : disk.find cwd path = .ok (location, .directory)) :
    Refuses disk cwd path (.failed .isDirectory "read" none none)

theorem read_eq_error_iff : disk.read cwd path = .error error ↔ disk.Refuses cwd path error := by
  constructor
  · intro h
    unfold read at h
    split at h
    · next hnul =>
      cases h
      exact .nul hnul
    · next hnul =>
      rw [Bool.not_eq_true] at hnul
      split at h
      · cases h
      · next hfind =>
        cases h
        exact .directory hnul hfind
      · next hfind =>
        cases h
        exact .lost hnul hfind
  · intro h
    unfold read
    cases h with
    | nul hnul => rw [if_pos hnul]
    | lost hnul hfind => simp only [hnul, Bool.false_eq_true, if_false, hfind]
    | directory hnul hfind => simp only [hnul, Bool.false_eq_true, if_false, hfind]

/-- A file is what can be read. -/
theorem isFile_iff_read : disk.isFile cwd path = true ↔ ∃ bytes, disk.read cwd path = .ok bytes := by
  unfold isFile read
  cases hasNul path with
  | true => simp
  | false =>
    rcases disk.find cwd path with fault | ⟨location, entry⟩
    · simp
    · cases entry <;> simp

/-- A path leads to a file, or else the system refuses to read it. -/
theorem isFile_eq_false_iff_refuses :
    disk.isFile cwd path = false ↔ ∃ error, disk.Refuses cwd path error := by
  simp only [← read_eq_error_iff]
  rw [Bool.eq_false_iff, ne_eq, isFile_iff_read]
  cases disk.read cwd path <;> simp

theorem isFile_of_readText {text : String} (h : disk.readText cwd path = .ok text) :
    disk.isFile cwd path = true := by
  rw [isFile_iff_read]
  cases hread : disk.read cwd path with
  | ok bytes => exact ⟨bytes, rfl⟩
  | error error =>
    rw [readText, hread] at h
    cases h

theorem refuses_of_readText (h : disk.readText cwd path = .error error) :
    disk.Refuses cwd path error := by
  rw [← read_eq_error_iff]
  cases hread : disk.read cwd path with
  | ok bytes =>
    rw [readText, hread] at h
    cases h
  | error error' =>
    rw [readText, hread] at h
    cases h
    rfl

theorem hasEntry_of_readText {text : String} (h : disk.readText cwd path = .ok text) :
    disk.hasEntry cwd path = true := by
  cases hthere : disk.hasEntry cwd path with
  | true => rfl
  | false => cases (isFile_of_readText h).symm.trans (isFile_eq_false_iff.mpr (.inl hthere))

theorem readText_of_directory (hthere : disk.hasEntry cwd path = true)
    (h : disk.LeadsToDirectory cwd path) :
    disk.readText cwd path = .error (.failed .isDirectory "read" none none) := by
  obtain ⟨location, hfind⟩ := h
  have hnul : hasNul path = false := by simpa using (Bool.and_eq_true_iff.mp hthere).1
  rw [readText, read_eq_error_iff.mpr (.directory hnul hfind)]
  rfl

/-- Where something is there that cannot be read, it is a directory. -/
theorem readText_of_hasEntry (h : disk.hasEntry cwd path = true) :
    (∃ text, disk.readText cwd path = .ok text) ∨ disk.LeadsToDirectory cwd path := by
  cases hread : disk.readText cwd path with
  | ok text => exact .inl ⟨text, rfl⟩
  | error error =>
    obtain ⟨hnul, hfound⟩ := Bool.and_eq_true_iff.mp h
    cases refuses_of_readText hread with
    | nul hnul' => simp [hnul'] at hnul
    | lost _ hfind => simp [hfind, Except.toOption] at hfound
    | directory _ hfind => exact .inr ⟨_, hfind⟩

end Disk

end GoldenRun
