import GoldenRun.Proofs.Disk.Trail
import GoldenRun.Proofs.Path.Join
import Mathlib.Data.List.Nodup

/-!
# What stands in a directory

* `mem_names_iff`: a directory names what stands in it
* `nodup_names`, `perm_names`: each once, and up to their order the same names on every disk that is
  the same tree
* `find_append_name`: a name behind a path to a directory leads to what is of that name in it
-/

namespace GoldenRun.Disk

open GoldenRun.Text

variable {disk disk' : Disk} {cwd here there location : Location} {path name : String}
  {names more : List String} {slash : Bool} {entry : Entry}

/-! ## The names in a directory -/

/-- No two entries are at one location. -/
def Distinct (disk : Disk) : Prop := (disk.entries.map (·.1)).Nodup

instance (disk : Disk) : Decidable disk.Distinct :=
  inferInstanceAs (Decidable (List.Nodup _))

/-- What an entry is called in the directory at `location`, if it stands there. -/
def nameIn (location l : Location) : Option String :=
  if l.dropLast = location then l.getLast? else none

theorem nameIn_eq_some_iff {l : Location} :
    nameIn location l = some name ↔ l = location ++ [name] := by
  unfold nameIn
  constructor
  · intro h
    split at h
    · next habove => rw [← habove, List.dropLast_append_getLast? name h]
    · cases h
  · rintro rfl
    simp

theorem names_eq_filterMap (disk : Disk) (location : Location) :
    disk.names location = (disk.entries.map (·.1)).filterMap (nameIn location) := by
  rw [names, List.filterMap_map]
  congr 1
  funext e
  rw [Function.comp_apply, nameIn]
  cases hreverse : e.1.reverse with
  | nil => simp [List.reverse_eq_nil_iff.mp hreverse]
  | cons name above => simp [List.reverse_eq_cons_iff.mp hreverse]

theorem get?_concat_ne_none_iff :
    disk.get? (location ++ [name]) ≠ none ↔ ∃ e ∈ disk.entries, e.1 = location ++ [name] := by
  unfold get?
  rw [if_neg (List.concat_ne_nil name location), Ne, Option.map_eq_none_iff, List.find?_eq_none]
  simp

/-- A directory names what stands in it. -/
theorem mem_names_iff : name ∈ disk.names location ↔ disk.get? (location ++ [name]) ≠ none := by
  rw [get?_concat_ne_none_iff, names_eq_filterMap, List.mem_filterMap]
  simp [nameIn_eq_some_iff]

/-- Where no two entries are at one location, a directory names each of its entries once. -/
theorem nodup_names (h : disk.Distinct) (location : Location) : (disk.names location).Nodup := by
  rw [names_eq_filterMap]
  refine List.Nodup.filterMap (fun l l' name hname hname' => ?_) h
  rw [nameIn_eq_some_iff.mp hname, nameIn_eq_some_iff.mp hname']

/-- Disks that are the same tree name the same in each directory, in one order or another. -/
theorem perm_names (htree : SameTree disk disk') (h : disk.Distinct) (h' : disk'.Distinct)
    (location : Location) : (disk'.names location).Perm (disk.names location) := by
  rw [List.perm_ext_iff_of_nodup (nodup_names h' location) (nodup_names h location)]
  intro name
  rw [mem_names_iff, mem_names_iff, htree]

namespace Distinct

/-- An entry that is put stands where one stood, or where none was. -/
theorem put (h : disk.Distinct) (location : Location) (entry : Entry) :
    (disk.put location entry).Distinct := by
  unfold Disk.put
  split
  · have hlocations : (disk.entries.map fun e => if e.1 = location then (location, entry) else e).map
        (·.1) = disk.entries.map (·.1) := by
      rw [List.map_map]
      refine List.map_congr_left fun e _ => ?_
      rw [Function.comp_apply]
      split
      · next hsame => exact hsame.symm
      · rfl
    rw [Distinct, hlocations]
    exact h
  · next habsent =>
    have hnone : location ∉ disk.entries.map (·.1) := by
      intro hmem
      obtain ⟨e, he, hsame⟩ := List.mem_map.mp hmem
      exact habsent (List.any_eq_true.mpr ⟨e, he, decide_eq_true hsame⟩)
    rw [Distinct, List.map_append]
    exact List.nodup_append'.mpr ⟨h, by simp, by simpa using hnone⟩

theorem remove (h : disk.Distinct) (location : Location) : (disk.remove location).Distinct :=
  h.sublist (List.filter_sublist.map _)

/-- A copy never leaves two entries at one location. -/
theorem copy (h : disk.Distinct) (cwd : Location) (source target : String) :
    (disk.copy cwd source target).2.Distinct := by
  rcases copy_cases disk cwd source target with
    ⟨origin, bytes, mark, goal, -, -, -, -, hcopy⟩ | ⟨error, hcopy⟩ | ⟨location, goal, -, -, hcopy⟩
  · rw [hcopy]
    dsimp only
    split
    · exact h
    · exact h.put goal _
  · rw [hcopy]
    exact h
  · rw [hcopy]
    exact h.remove goal

end Distinct

/-! ## Paths through a directory -/

/-- Names that lead to a directory can be followed further from there. -/
theorem follow_append (h : disk.follow slash here names = .ok (.present there .directory))
    (slash' : Bool) (more : List String) :
    disk.follow slash' here (names ++ more) = disk.follow slash' there more := by
  fun_induction follow disk slash here names with
  | case1 here =>
    cases h
    rfl
  | case2 here rest ih =>
    rw [List.cons_append, follow, if_pos rfl]
    exact ih h
  | case3 here rest hdot ih =>
    rw [List.cons_append, follow, if_neg hdot, if_pos rfl]
    exact ih h
  | case9 here name rest hdot hdots hlong next hnext ih =>
    have hdirectory : disk.get? (here ++ [name]) = some .directory := hnext
    rw [List.cons_append, follow, if_neg hdot, if_neg hdots, if_neg hlong]
    simp only [hdirectory]
    exact ih h
  | _ => simp at h

/-- The name of an entry leads to it from its directory. -/
theorem follow_name (hname : Path.IsName name) (hshort : name.utf8ByteSize ≤ 255)
    (hentry : disk.get? (here ++ [name]) = some entry) :
    disk.follow false here [name] = .ok (.present (here ++ [name]) entry) := by
  rw [follow, if_neg hname.notDot, if_neg hname.notDots, if_neg (Nat.not_lt.mpr hshort)]
  simp only [hentry]
  cases entry with
  | directory => rfl
  | file bytes mark => rfl

/-- **A name behind a path to a directory leads to the entry of that name in it**, if neither the
name nor the path is too long. -/
theorem find_append_name (hfind : disk.find cwd path = .ok (location, .directory))
    (hname : Path.IsName name) (hshort : name.utf8ByteSize ≤ 255)
    (hpath : (path ++ "/" ++ name).utf8ByteSize < 4096)
    (hentry : disk.get? (location ++ [name]) = some entry) :
    disk.find cwd (path ++ "/" ++ name) = .ok (location ++ [name], entry) := by
  obtain ⟨hne, -, hstart, hfollow⟩ := locate_eq_ok_iff.mp (find_eq_ok_iff.mp hfind)
  have habsolute : Path.isAbsolute (path ++ "/" ++ name) = Path.isAbsolute path := by
    rw [String.append_assoc, Path.isAbsolute_append hne]
  have hslash : decide ((path ++ "/" ++ name).toList.getLast? = some '/') = false := by
    rw [decide_eq_false_iff_not, String.toList_append]
    exact Path.getLast?_of_name hname _
  have hnames : (Path.parts (path ++ "/" ++ name)).filter (· ≠ "") =
      (Path.parts path).filter (· ≠ "") ++ [name] := by
    rw [Path.parts_append_slash, Path.parts_of_noSlash hname.noSlash, List.filter_append]
    simp [hname.nonempty]
  rw [find_eq_ok_iff, locate_eq_ok_iff, habsolute, hslash, hnames]
  refine ⟨by simp [hname.nonempty], hpath, hstart, ?_⟩
  rw [follow_append hfollow, follow_name hname hshort hentry]

end GoldenRun.Disk
