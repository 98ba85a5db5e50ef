import GoldenRun.Proofs.Path

/-!
# The directory of a path

`Path.directory` cuts a path off before its last name.

* `directory_path`: the directory of a location's path is the location above it
* `directory_join`: so the directory of a path that is joined is one up from where it leads
-/

namespace GoldenRun.Path

open GoldenRun.Text

variable {path root name : String}

/-- A slash at the end does not count. -/
theorem directory_append_slash (hne : path ≠ "") : directory (path ++ "/") = directory path := by
  unfold directory
  rw [String.toList_append]
  cases hpath : path.toList with
  | nil => exact (hne (String.toList_eq_nil_iff.mp hpath)).elim
  | cons first rest =>
    have hrest : (rest ++ "/".toList).reverse.dropWhile (· = '/') =
        rest.reverse.dropWhile (· = '/') := by
      simp
    rw [List.cons_append]
    dsimp only
    rw [hrest]

/-- What stands before a name, when the name is cut off from behind. -/
theorem dropWhile_name (h : IsName name) (before : List Char) :
    ((before ++ name.toList).reverse.dropWhile (· = '/')).dropWhile (· ≠ '/') =
      before.reverse.dropWhile (· ≠ '/') := by
  obtain ⟨front, last, hlast⟩ : ∃ front last, name.toList = front ++ [last] := by
    rcases List.eq_nil_or_concat name.toList with hnil | ⟨front, last, hlast⟩
    · exact (h.nonempty (String.toList_eq_nil_iff.mp hnil)).elim
    · exact ⟨front, last, by rw [hlast, List.concat_eq_append]⟩
  have hslash : last ≠ '/' := fun hslash => h.noSlash (by simp [hlast, hslash])
  have hname : ∀ c ∈ name.toList.reverse, c ≠ '/' := by
    rintro c hc rfl
    exact h.noSlash (List.mem_reverse.mp hc)
  have hkept : (before ++ name.toList).reverse.dropWhile (· = '/') =
      name.toList.reverse ++ before.reverse := by
    rw [List.reverse_append, hlast, List.reverse_append, List.reverse_singleton,
      List.singleton_append, List.cons_append, List.dropWhile_cons_of_neg (by simpa using hslash)]
  rw [hkept, List.dropWhile_append_of_pos (by simpa using hname)]

/-- **The directory of a location's path is the location above it.** -/
theorem directory_path {l : Location} (h : ∀ part ∈ l, IsName part) :
    directory l.path = Location.path l.dropLast := by
  rcases List.eq_nil_or_concat l with rfl | ⟨above, name, rfl⟩
  · decide
  rw [List.concat_eq_append] at *
  rw [List.dropLast_concat]
  have hname : IsName name := h name (by simp)
  by_cases habove : above = []
  · subst habove
    have hpath : (Location.path ([] ++ [name])).toList = '/' :: ([] ++ name.toList) := by
      simp [Location.path, joinStrings]
    unfold directory
    rw [hpath]
    dsimp only
    rw [dropWhile_name hname]
    rfl
  · have hpath : (Location.path (above ++ [name])).toList =
        '/' :: ((joinStrings "/" above).toList ++ ['/'] ++ name.toList) := by
      simp [Location.path, joinStrings,
        String.intercalate_append_of_ne_nil habove (List.cons_ne_nil name [])]
    have hfront : joinStrings "/" above ≠ "" := by
      intro hempty
      have hparts := parts_joinStrings habove fun part hpart => (h part (by simp [hpart])).noSlash
      rw [hempty] at hparts
      exact (h "" (by simp [← hparts, parts, splitString, split])).nonempty rfl
    unfold directory
    rw [hpath]
    dsimp only
    rw [dropWhile_name hname, List.reverse_append, List.reverse_singleton, List.singleton_append,
      List.dropWhile_cons_of_neg (by simp)]
    dsimp only
    rw [if_neg (by simpa using hfront), List.reverse_reverse, Location.path]
    exact String.toList_inj.mp (by simp)

theorem isName_of_mem_collapse {part : String} (h : isAbsolute path = true)
    (hpart : part ∈ collapse false (parts path)) : IsName part := by
  rw [← absoluteParts_of_absolute h "/"] at hpart
  exact isName_of_mem_absoluteParts hpart

theorem directory_normalize (h : isAbsolute path = true) :
    directory (normalize path) = Location.path (collapse false (parts path)).dropLast := by
  rw [← directory_path fun part hpart => isName_of_mem_collapse h hpart, normalize_eq h]
  split
  · exact directory_append_slash (ne_empty_of_isAbsolute (isAbsolute_path _))
  · rw [String.append_empty]

/-- **The directory of a path that is joined is one up from where it leads.** -/
theorem directory_join (h : isAbsolute root = true) (path : String) :
    directory (join root path) =
      Location.path (collapse false (parts root ++ parts path)).dropLast := by
  have hfilter : [root, path].filter (· ≠ "") = root :: [path].filter (· ≠ "") :=
    List.filter_cons_of_pos (by simpa using ne_empty_of_isAbsolute h)
  rw [join, joinAll, hfilter]
  by_cases hpath : path = ""
  · subst hpath
    -- An empty part is laid on nothing.
    have hparts : collapse false (parts root ++ parts "") = collapse false (parts root) := by
      simp [collapse, parts, splitString, split, layPart]
    rw [hparts]
    exact directory_normalize h
  · have hparts : parts (joinStrings "/" [root, path]) = parts root ++ parts path := by
      rw [← parts_append_slash]
      simp [joinStrings]
    have habsolute : isAbsolute (joinStrings "/" [root, path]) = true := by
      obtain ⟨rest, hrest⟩ := isAbsolute_iff.mp h
      exact isAbsolute_iff.mpr ⟨rest ++ '/' :: path.toList, by simp [joinStrings, hrest]⟩
    rw [List.filter_cons_of_pos (by simpa using hpath), List.filter_nil, ← hparts]
    exact directory_normalize habsolute

end GoldenRun.Path
