import GoldenRun.Proofs.Disk
import GoldenRun.Proofs.Path
import Mathlib.Data.List.Infix
import Mathlib.Data.List.TakeWhile

/-!
# Entering a directory

* `enter_workingPath`: the path that is told of a directory leads back to it from everywhere, as
  long as the directory stands
* `isNamed_of_enter`: where a path leads has names that can be written in a path
-/

namespace GoldenRun

open GoldenRun.Text

/-- A name that an entry can have. -/
structure IsEntryName (name : String) : Prop extends Path.IsName name where
  /-- It is not too long. -/
  short : name.utf8ByteSize ≤ 255
  /-- It can be handed to the system. -/
  noNul : '\x00' ∉ name.toList

instance (name : String) : Decidable (IsEntryName name) :=
  decidable_of_iff (name ≠ "" ∧ name ≠ "." ∧ name ≠ ".." ∧ '/' ∉ name.toList ∧
      name.utf8ByteSize ≤ 255 ∧ '\x00' ∉ name.toList)
    ⟨fun ⟨hne, hdot, hdots, hslash, hshort, hnul⟩ => ⟨⟨hne, hdot, hdots, hslash⟩, hshort, hnul⟩,
      fun h => ⟨h.nonempty, h.notDot, h.notDots, h.noSlash, h.short, h.noNul⟩⟩

/-- A location whose names entries can have. -/
def Location.IsNamed (l : Location) : Prop := ∀ name ∈ l, IsEntryName name

instance (l : Location) : Decidable l.IsNamed :=
  inferInstanceAs (Decidable (∀ name ∈ l, IsEntryName name))

namespace Disk

variable {disk : Disk} {cwd here there l : Location} {path : String} {names : List String}
  {slash : Bool} {entry : Entry}

/-- A directory stands if it and all directories above it are there. -/
def Stands (disk : Disk) (l : Location) : Prop :=
  ∀ above, above <+: l → disk.get? above = some .directory

instance (disk : Disk) (l : Location) : Decidable (disk.Stands l) :=
  decidable_of_iff (∀ above ∈ l.inits, disk.get? above = some .directory)
    (forall_congr' fun above => by rw [List.mem_inits])

/-- Names lead down to the directory that they name. -/
theorem follow_of_stands (hnames : Location.IsNamed names) (h : disk.Stands (here ++ names)) :
    disk.follow slash here names = .ok (.present (here ++ names) .directory) := by
  induction names generalizing here with
  | nil => simp [follow]
  | cons name names ih =>
    have hname := hnames name List.mem_cons_self
    have hnext : disk.get? (here ++ [name]) = some .directory := h _ ⟨names, by simp⟩
    rw [follow, if_neg hname.notDot, if_neg hname.notDots, if_neg (Nat.not_lt.mpr hname.short)]
    simp only [hnext]
    rw [ih (fun n hn => hnames n (List.mem_cons_of_mem name hn)) (by simpa using h)]
    simp

theorem not_mem_path {c : Char} (hc : c ≠ '/') (h : ∀ name ∈ l, c ∉ name.toList) :
    c ∉ l.path.toList := by
  rw [Location.path, String.toList_append, List.mem_append]
  rintro (hslash | hmem)
  · exact hc (by simpa using hslash)
  · exact Path.not_mem_joinStrings hc h hmem

/-- A path is told if it is short enough to be used. -/
theorem workingPath_eq_ok_iff :
    l.workingPath = .ok path ↔ path = upToNul l.path ∧ path.utf8ByteSize < 4096 := by
  unfold Location.workingPath
  dsimp only
  by_cases hshort : (upToNul l.path).utf8ByteSize < 4096
  · rw [if_pos hshort]
    constructor
    · rintro ⟨⟩
      exact ⟨rfl, hshort⟩
    · rintro ⟨rfl, -⟩
      rfl
  · rw [if_neg hshort]
    constructor
    · intro h
      split at h <;> cases h
    · rintro ⟨rfl, hshort'⟩
      exact (hshort hshort').elim

/-- A path that cannot be told is too long; no path is named. -/
theorem workingPath_error {error : DiskError} (h : l.workingPath = .error error) :
    ∃ fault, error = .failed fault "uv_cwd" none none := by
  unfold Location.workingPath at h
  dsimp only at h
  split at h
  · cases h
  · split at h
    · cases h
      exact ⟨_, rfl⟩
    · cases h
      exact ⟨_, rfl⟩

/-- What is entered under the path that is told is what is entered under the path itself. -/
theorem enter_upToNul (disk : Disk) (cwd : Location) (path : String) :
    disk.enter cwd (upToNul path) = disk.enter cwd path := by
  unfold enter
  rw [upToNul_eq_self (not_mem_upToNul path)]

/-- A directory is entered where its path leads to it. -/
theorem locate_of_enter (h : disk.enter cwd path = .ok there) :
    disk.locate cwd (upToNul path) = .ok (.present there .directory) := by
  unfold enter at h
  dsimp only at h
  split at h
  · next location hfind =>
    cases h
    exact find_eq_ok_iff.mp hfind
  · cases h
  · cases h

/-- A directory that can be entered under its path can tell it. -/
theorem workingPath_of_enter (h : disk.enter cwd l.path = .ok there) :
    l.workingPath = .ok (upToNul l.path) := by
  obtain ⟨-, hshort, -, -⟩ := locate_eq_ok_iff.mp (locate_of_enter h)
  exact workingPath_eq_ok_iff.mpr ⟨rfl, hshort⟩

/-- **The path that is told of a directory leads to it from everywhere.** -/
theorem enter_workingPath (hnamed : l.IsNamed) (hpath : l.workingPath = .ok path)
    (h : disk.Stands l) (cwd : Location) : disk.enter cwd path = .ok l := by
  obtain ⟨rfl, hshort⟩ := workingPath_eq_ok_iff.mp hpath
  have hwhole : upToNul l.path = l.path :=
    upToNul_eq_self (not_mem_path (by decide) fun name hname => (hnamed name hname).noNul)
  rw [hwhole] at hshort ⊢
  have hparts : (Path.parts l.path).filter (· ≠ "") = l := by
    by_cases hne : l = []
    · subst hne
      decide
    · rw [Path.parts_path hne fun name hname => (hnamed name hname).noSlash]
      simpa using fun name hname => (hnamed name hname).nonempty
  have hfind : disk.find cwd l.path = .ok (l, .directory) := by
    rw [find_eq_ok_iff, locate_eq_ok_iff, Path.isAbsolute_path, hparts]
    refine ⟨by simp [Location.path], hshort, rfl, ?_⟩
    exact follow_of_stands hnamed (h : disk.Stands ([] ++ l))
  rw [enter, hwhole]
  simp only [hfind]

/-- Names without slashes lead to a location of such names. -/
theorem isNamed_of_follow (hhere : Location.IsNamed here)
    (hnames : ∀ name ∈ names, name ≠ "" ∧ '/' ∉ name.toList ∧ '\x00' ∉ name.toList)
    (h : disk.follow slash here names = .ok (.present there entry)) :
    Location.IsNamed there := by
  have hnext : ∀ {here : Location} {name : String} {rest : List String}, Location.IsNamed here →
      (∀ n ∈ name :: rest, n ≠ "" ∧ '/' ∉ n.toList ∧ '\x00' ∉ n.toList) → ¬ name = "." →
      ¬ name = ".." → ¬ 255 < name.utf8ByteSize → Location.IsNamed (here ++ [name]) := by
    intro here name rest hhere hnames hdot hdots hlong n hn
    rcases List.mem_append.mp hn with hn | hn
    · exact hhere n hn
    · obtain rfl : n = name := by simpa using hn
      obtain ⟨hne, hslash, hnul⟩ := hnames n List.mem_cons_self
      exact ⟨⟨hne, hdot, hdots, hslash⟩, Nat.not_lt.mp hlong, hnul⟩
  fun_induction follow disk slash here names with
  | case1 here => cases h; exact hhere
  | case2 here rest ih => exact ih hhere (fun n hn => hnames n (List.mem_cons_of_mem _ hn)) h
  | case3 here rest _ ih =>
    -- A step up leaves some of the names.
    exact ih (fun n hn => hhere n (List.dropLast_subset _ hn))
      (fun n hn => hnames n (List.mem_cons_of_mem _ hn)) h
  | case7 here name rest hdot hdots hlong next bytes mark _ _ =>
    obtain ⟨rfl, -⟩ := Place.present.inj (Except.ok.inj h)
    exact hnext hhere hnames hdot hdots hlong
  | case9 here name rest hdot hdots hlong next _ ih =>
    exact ih (hnext hhere hnames hdot hdots hlong)
      (fun n hn => hnames n (List.mem_cons_of_mem _ hn)) h
  | _ => cases h

/-- A directory that is entered from a place with proper names has such names itself. -/
theorem isNamed_of_enter (hcwd : cwd.IsNamed) (h : disk.enter cwd path = .ok there) :
    there.IsNamed := by
  obtain ⟨-, -, -, hfollow⟩ := locate_eq_ok_iff.mp (locate_of_enter h)
  refine isNamed_of_follow ?_ (fun name hname => ?_) hfollow
  · split
    · exact fun name hname => absurd hname List.not_mem_nil
    · exact hcwd
  · obtain ⟨hmem, hne⟩ := List.mem_filter.mp hname
    refine ⟨by simpa using hne, Path.noSlash_of_mem_parts hmem, fun hnul => ?_⟩
    obtain ⟨piece, hpiece, rfl⟩ := List.mem_map.mp hmem
    rw [String.toList_ofList] at hnul
    exact not_mem_upToNul path (mem_of_mem_split hpiece hnul)

end Disk

end GoldenRun
