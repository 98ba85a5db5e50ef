import GoldenRun.Disk.Basic
import GoldenRun.Proofs.Text.Split

/-!
# Paths and the names they are made of

An absolute path without superfluous parts is the path of a location, that is, of a list of names.

* `join_name`: a name written behind an absolute path is the next name of its location
* `join_injective`: two names written behind one path make different paths
* `absoluteParts_path`: the parts of a location's path are its names
* `rootRelative_path`: the path from a root to a location below it, backslashes turned
* `absolute_rootRelative_iff`: that path leads back to the location exactly if its last name holds
  no backslash
* `rootRelative_injective`: even so, two names in one directory never get the same path
-/

namespace GoldenRun.Path

open GoldenRun.Text

/-- A part of a path that names an entry. -/
structure IsName (part : String) : Prop where
  /-- It is not empty. -/
  nonempty : part ≠ ""
  /-- It does not stand for the directory itself. -/
  notDot : part ≠ "."
  /-- It does not climb. -/
  notDots : part ≠ ".."
  /-- It is one part. -/
  noSlash : '/' ∉ part.toList

variable {cwd root part path name other : String} {names : List String}

/-! ## Collapsing -/

theorem layPart_name (h : IsName part) (canClimb : Bool) (stack : List String) :
    layPart canClimb stack part = part :: stack := by
  unfold layPart
  rw [if_neg (by simp [h.nonempty, h.notDot]), if_neg h.notDots]

/-- Names at the end of a path stay as they are. -/
theorem collapse_append_names (canClimb : Bool) (before : List String)
    (h : ∀ part ∈ names, IsName part) :
    collapse canClimb (before ++ names) = collapse canClimb before ++ names := by
  have hlay : ∀ stack, names.foldl (layPart canClimb) stack = names.reverse ++ stack := by
    intro stack
    induction names generalizing stack with
    | nil => rfl
    | cons part rest ih =>
      rw [List.foldl_cons, layPart_name (h part List.mem_cons_self),
        ih fun p mem => h p (List.mem_cons_of_mem part mem)]
      simp
  rw [collapse, List.foldl_append, hlay, List.reverse_append, List.reverse_reverse, collapse]

/-- Without climbing above the root, the parts that remain are parts of the path and no dots. -/
theorem mem_collapse {parts : List String} (h : part ∈ collapse false parts) :
    part ∈ parts ∧ part ≠ "" ∧ part ≠ "." ∧ part ≠ ".." := by
  have hlay : ∀ (stack : List String), part ∈ parts.foldl (layPart false) stack →
      part ∈ stack ∨ part ∈ parts ∧ part ≠ "" ∧ part ≠ "." ∧ part ≠ ".." := by
    clear h
    induction parts with
    | nil => exact fun stack h => .inl h
    | cons first rest ih =>
      intro stack h
      rcases ih _ h with h | ⟨hrest, hplain⟩
      · unfold layPart at h
        split at h
        · exact .inl h
        · next hnone =>
          obtain ⟨hempty, hdot⟩ := not_or.mp hnone
          split at h
          · cases stack with
            | nil => simp at h
            | cons top below =>
              dsimp only at h
              split at h
              · next htop =>
                subst htop
                rcases List.mem_cons.mp h with rfl | h
                · exact .inl List.mem_cons_self
                · exact .inl h
              · exact .inl (List.mem_cons_of_mem top h)
          · next hdots =>
            rcases List.mem_cons.mp h with rfl | h
            · exact .inr ⟨List.mem_cons_self, hempty, hdot, hdots⟩
            · exact .inl h
      · exact .inr ⟨List.mem_cons_of_mem first hrest, hplain⟩
  exact (hlay [] (by simpa [collapse] using h)).resolve_left (by simp)

/-! ## The parts of a path -/

theorem noSlash_of_mem_parts (h : part ∈ parts path) : '/' ∉ part.toList := by
  obtain ⟨piece, hpiece, rfl⟩ := List.mem_map.mp h
  rw [String.toList_ofList]
  exact not_mem_of_mem_split hpiece

/-- A path is an absolute one exactly if it begins with a slash. -/
theorem isAbsolute_iff : isAbsolute path = true ↔ ∃ rest, path.toList = '/' :: rest := by
  rw [isAbsolute, decide_eq_true_eq, List.head?_eq_some_iff]

theorem ne_empty_of_isAbsolute (h : isAbsolute path = true) : path ≠ "" := by
  rintro rfl
  exact absurd h (by decide)

/-- The parts of an absolute path are read from the root, wherever one is. -/
theorem absoluteParts_of_absolute (h : isAbsolute path = true) (cwd : String) :
    absoluteParts cwd path = collapse false (parts path) := by
  rw [absoluteParts, if_pos h]

theorem isName_of_mem_absoluteParts (h : part ∈ absoluteParts cwd path) : IsName part := by
  unfold absoluteParts at h
  obtain ⟨hmem, hempty, hdot, hdots⟩ := mem_collapse h
  refine ⟨hempty, hdot, hdots, ?_⟩
  split at hmem
  · exact noSlash_of_mem_parts hmem
  · exact (List.mem_append.mp hmem).elim noSlash_of_mem_parts noSlash_of_mem_parts

/-- Slashes between pieces part the first from the others. -/
theorem parts_append_slash (before behind : String) :
    parts (before ++ "/" ++ behind) = parts before ++ parts behind := by
  have hchars : (before ++ "/" ++ behind).toList = before.toList ++ '/' :: behind.toList := by
    simp
  rw [parts, splitString, hchars, split_append_cons, List.map_append]
  rfl

theorem parts_of_noSlash (h : '/' ∉ part.toList) : parts part = [part] := by
  rw [parts, splitString, split_of_not_mem h]
  simp

/-- Names that are joined are the parts of what they make. -/
theorem parts_joinStrings (hne : names ≠ []) (h : ∀ part ∈ names, '/' ∉ part.toList) :
    parts (joinStrings "/" names) = names := by
  have hslash : "/".toList = ['/'] := rfl
  rw [parts, splitString, toList_joinStrings hslash, split_join (by simpa using hne)]
  · simp [Function.comp_def]
  · intro piece hpiece
    obtain ⟨part, hpart, rfl⟩ := List.mem_map.mp hpiece
    exact h part hpart

/-- Before its first slash an absolute path has an empty part. -/
theorem isAbsolute_joinStrings (hne : names ≠ [])
    (h : ∀ part ∈ names, part ≠ "" ∧ '/' ∉ part.toList) :
    isAbsolute (joinStrings "/" names) = false := by
  rw [Bool.eq_false_iff]
  intro habsolute
  obtain ⟨rest, hrest⟩ := isAbsolute_iff.mp habsolute
  have hempty : "" ∈ parts (joinStrings "/" names) := by
    rw [parts, splitString, hrest]
    exact List.mem_map.mpr ⟨[], by rw [split, if_pos rfl]; exact List.mem_cons_self, rfl⟩
  rw [parts_joinStrings hne fun part mem => (h part mem).2] at hempty
  exact (h "" hempty).1 rfl

/-! ## Paths of locations -/

theorem isAbsolute_path (l : Location) : isAbsolute l.path = true := by
  rw [isAbsolute_iff]
  exact ⟨(joinStrings "/" l).toList, by simp [Location.path]⟩

theorem parts_path {l : Location} (hne : l ≠ []) (h : ∀ part ∈ l, '/' ∉ part.toList) :
    parts l.path = "" :: l := by
  have hpath : l.path = "" ++ "/" ++ joinStrings "/" l := by simp [Location.path]
  rw [hpath, parts_append_slash, parts_joinStrings hne h, parts_of_noSlash (by simp)]
  rfl

/-- The parts of a location's path are its names. -/
theorem absoluteParts_path {l : Location} (h : ∀ part ∈ l, IsName part) (cwd : String) :
    absoluteParts cwd l.path = l := by
  rw [absoluteParts_of_absolute (isAbsolute_path l)]
  by_cases hne : l = []
  · subst hne
    decide
  · rw [parts_path hne fun part mem => (h part mem).noSlash]
    have hempty : collapse false [""] = [] := by decide
    exact (collapse_append_names false [""] h).trans (by rw [hempty, List.nil_append])

/-- Locations with the same path are the same. -/
theorem path_injective {l m : Location} (hl : ∀ part ∈ l, IsName part)
    (hm : ∀ part ∈ m, IsName part) (h : l.path = m.path) : l = m := by
  rw [← absoluteParts_path hl "/", h, absoluteParts_path hm]

/-- An absolute path is the path of its parts once it is normalized, and keeps a slash at its end
unless it is the root. -/
theorem normalize_eq (h : isAbsolute path = true) :
    normalize path = Location.path (collapse false (parts path)) ++
      if path.toList.getLast? = some '/' ∧ joinStrings "/" (collapse false (parts path)) ≠ "" then
        "/" else "" := by
  have hbody : ∀ body : String, (if body = "" then "" else body) = body := by
    intro body
    split
    · next hempty => exact hempty.symm
    · rfl
  rw [normalize, if_neg (ne_empty_of_isAbsolute h)]
  simp only [h, Bool.not_true, if_true, hbody, true_and]
  split
  · exact String.append_assoc.symm
  · exact (String.append_empty ..).symm

/-- Without a slash at its end it is that path. -/
theorem normalize_of_absolute (h : isAbsolute path = true)
    (hlast : path.toList.getLast? ≠ some '/') (cwd : String) :
    normalize path = Location.path (absoluteParts cwd path) := by
  rw [absoluteParts_of_absolute h, normalize_eq h, if_neg fun hboth => hlast hboth.1,
    String.append_empty]

theorem getLast?_of_name (h : IsName part) (before : List Char) :
    (before ++ part.toList).getLast? ≠ some '/' := by
  intro hlast
  rw [List.getLast?_append] at hlast
  cases hpart : part.toList.getLast? with
  | none => exact h.nonempty (by simpa using hpart)
  | some c =>
    rw [hpart] at hlast
    obtain rfl : c = '/' := by simpa using hlast
    exact h.noSlash (List.mem_of_getLast? hpart)

/-- Names written behind an absolute path are the next names of its location. -/
theorem joinAll_names (h : isAbsolute root = true) (hne : names ≠ [])
    (hnames : ∀ part ∈ names, IsName part) (cwd : String) :
    joinAll (root :: names) = Location.path (absoluteParts cwd root ++ names) := by
  obtain ⟨rest, hroot⟩ := isAbsolute_iff.mp h
  have hfilter : (root :: names).filter (· ≠ "") = root :: names := by
    rw [List.filter_eq_self]
    intro part mem
    rcases List.mem_cons.mp mem with rfl | mem
    · simpa using ne_empty_of_isAbsolute h
    · simpa using (hnames part mem).nonempty
  have hjoin : joinStrings "/" (root :: names) = root ++ "/" ++ joinStrings "/" names :=
    String.intercalate_cons_of_ne_nil hne
  have hparts : parts (root ++ "/" ++ joinStrings "/" names) = parts root ++ names := by
    rw [parts_append_slash, parts_joinStrings hne fun part mem => (hnames part mem).noSlash]
  have habsolute : isAbsolute (root ++ "/" ++ joinStrings "/" names) = true := by
    rw [isAbsolute_iff]
    exact ⟨rest ++ '/' :: (joinStrings "/" names).toList, by simp [hroot]⟩
  have hlast : (root ++ "/" ++ joinStrings "/" names).toList.getLast? ≠ some '/' := by
    obtain ⟨before, last, rfl⟩ := (List.eq_nil_or_concat names).resolve_left hne
    rw [List.concat_eq_append] at *
    have hname := hnames last (by simp)
    by_cases hbefore : before = []
    · subst hbefore
      simpa [joinStrings] using getLast?_of_name hname (root.toList ++ ['/'])
    · have happend :
          joinStrings "/" (before ++ [last]) = joinStrings "/" before ++ "/" ++ last := by
        simpa [joinStrings] using
          String.intercalate_append_of_ne_nil (s := "/") hbefore (List.cons_ne_nil last [])
      rw [happend]
      simpa using getLast?_of_name hname
        (root.toList ++ '/' :: (joinStrings "/" before).toList ++ ['/'])
  rw [joinAll, hfilter, hjoin, normalize_of_absolute habsolute hlast cwd,
    absoluteParts_of_absolute habsolute, hparts, collapse_append_names false _ hnames,
    absoluteParts_of_absolute h]

/-- A name written behind an absolute path is the next name of its location. -/
theorem join_name (h : isAbsolute root = true) (hname : IsName part) (cwd : String) :
    join root part = Location.path (absoluteParts cwd root ++ [part]) :=
  joinAll_names h (List.cons_ne_nil part []) (by simpa using hname) cwd

/-! ## Names behind any path -/

/-- Names that are joined end in the last of them, behind what the others make. -/
theorem exists_joinStrings_concat_eq (front : List String) :
    ∃ lead : String, ∀ last, joinStrings "/" (front ++ [last]) = lead ++ last := by
  by_cases hfront : front = []
  · subst hfront
    exact ⟨"", fun last => by simp [joinStrings]⟩
  · refine ⟨joinStrings "/" front ++ "/", fun last => ?_⟩
    simpa [joinStrings] using
      String.intercalate_append_of_ne_nil (s := "/") hfront (List.cons_ne_nil last [])

theorem isAbsolute_append_name (hname : IsName name) (before : String) :
    isAbsolute (before ++ name) = isAbsolute before := by
  unfold isAbsolute
  rw [String.toList_append]
  cases hbefore : before.toList with
  | cons c rest => simp
  | nil =>
    cases hchars : name.toList with
    | nil => simp
    | cons c rest =>
      have hc : c ≠ '/' := fun same => hname.noSlash (by simp [hchars, same])
      simp [hc]

/-- A path that ends in a name still does so once it is normalized. -/
theorem normalize_append_name {before : String} {front : List String} (hname : IsName name)
    (hparts : parts (before ++ name) = front ++ [name]) :
    normalize (before ++ name) = (if isAbsolute before then "/" else "") ++
      joinStrings "/" (collapse (!isAbsolute before) front ++ [name]) := by
  have hpath : before ++ name ≠ "" := fun h =>
    hname.nonempty (String.append_eq_empty_iff.mp h).2
  have hlast : (before ++ name).toList.getLast? ≠ some '/' := by
    rw [String.toList_append]
    exact getLast?_of_name hname before.toList
  have hcollapse : collapse (!isAbsolute before) (front ++ [name]) =
      collapse (!isAbsolute before) front ++ [name] :=
    collapse_append_names _ front (by simpa using hname)
  have hbody : joinStrings "/" (collapse (!isAbsolute before) front ++ [name]) ≠ "" := by
    obtain ⟨lead, hlead⟩ := exists_joinStrings_concat_eq (collapse (!isAbsolute before) front)
    rw [hlead]
    exact fun h => hname.nonempty (String.append_eq_empty_iff.mp h).2
  rw [normalize, if_neg hpath]
  simp only [isAbsolute_append_name hname, hparts, hcollapse, if_neg hbody, hlast, false_and,
    if_false]
  split
  · rfl
  · exact (String.empty_append).symm

/-- A name written behind a path comes out at its end; what stands before it does not depend on the
name. -/
theorem exists_join_eq (base : String) :
    ∃ lead : String, ∀ name, IsName name → join base name = lead ++ name := by
  by_cases hbase : base = ""
  · refine ⟨"", fun name hname => ?_⟩
    have hjoin : join base name = normalize ("" ++ name) := by
      simp [join, joinAll, hbase, hname.nonempty, joinStrings]
    have hparts : parts ("" ++ name) = [] ++ [name] := by
      simpa using parts_of_noSlash hname.noSlash
    rw [hjoin, normalize_append_name hname hparts]
    simp [isAbsolute, collapse, joinStrings]
  · obtain ⟨lead, hlead⟩ :=
      exists_joinStrings_concat_eq (collapse (!isAbsolute (base ++ "/")) (parts base))
    refine ⟨(if isAbsolute (base ++ "/") then "/" else "") ++ lead, fun name hname => ?_⟩
    have hjoin : join base name = normalize (base ++ "/" ++ name) := by
      simp [join, joinAll, hbase, hname.nonempty, joinStrings]
    have hparts : parts (base ++ "/" ++ name) = parts base ++ [name] := by
      rw [parts_append_slash, parts_of_noSlash hname.noSlash]
    rw [hjoin, normalize_append_name hname hparts, hlead, String.append_assoc]

/-- Two names written behind one path make different paths. -/
theorem join_injective {base : String} (hname : IsName name) (hother : IsName other)
    (h : join base name = join base other) : name = other := by
  obtain ⟨lead, hlead⟩ := exists_join_eq base
  rw [hlead name hname, hlead other hother] at h
  exact String.append_right_inj lead |>.mp h

/-! ## Paths from a root -/

/-- Of a location below another, what is common to both can be dropped. -/
theorem dropCommon_append (l rest : List String) : dropCommon l (l ++ rest) = ([], rest) := by
  induction l with
  | nil => cases rest <;> rfl
  | cons name l ih => rw [List.cons_append, dropCommon, if_pos rfl, ih]

/-- The path from a root to a location below it is made of the names in between. -/
theorem relative_path (hne : names ≠ []) (hnames : ∀ part ∈ names, IsName part) :
    relative cwd root (Location.path (absoluteParts cwd root ++ names)) =
      joinStrings "/" names := by
  have hall : ∀ part ∈ absoluteParts cwd root ++ names, IsName part := by
    intro part mem
    exact (List.mem_append.mp mem).elim isName_of_mem_absoluteParts (hnames part)
  have hparts := absoluteParts_path hall cwd
  have hroot : root ≠ Location.path (absoluteParts cwd root ++ names) := by
    intro same
    rw [← same] at hparts
    exact hne (List.self_eq_append_right.mp hparts)
  rw [relative, if_neg hroot, hparts, dropCommon_append]
  rfl

/-- What stands for a character in a path from a root. -/
def turned (c : Char) : Char := if c = '\\' then '/' else c

theorem rootRelative_path (hne : names ≠ []) (hnames : ∀ part ∈ names, IsName part) :
    rootRelative cwd (Location.path (absoluteParts cwd root ++ names)) root =
      String.ofList ((joinStrings "/" names).toList.map turned) := by
  rw [rootRelative, relative_path hne hnames]
  rfl

theorem map_turned {text : List Char} (h : '\\' ∉ text) : text.map turned = text := by
  rw [List.map_congr_left (g := id), List.map_id]
  intro c mem
  exact if_neg fun same : c = '\\' => h (same ▸ mem)

theorem not_mem_map_turned (text : List Char) : '\\' ∉ text.map turned := by
  intro h
  obtain ⟨c, -, hc⟩ := List.mem_map.mp h
  unfold turned at hc
  split at hc
  · exact absurd hc (by decide)
  · next hne => exact hne hc

/-- Names that are joined lead to a location below the root from which they are followed. -/
theorem absolute_joinStrings (h : isAbsolute root = true) (hne : names ≠ [])
    (hnames : ∀ part ∈ names, IsName part) :
    absolute root (joinStrings "/" names) = Location.path (absoluteParts cwd root ++ names) := by
  have hparts := parts_joinStrings hne fun part mem => (hnames part mem).noSlash
  have hrelative := isAbsolute_joinStrings hne fun part mem =>
    ⟨(hnames part mem).nonempty, (hnames part mem).noSlash⟩
  have habs : absolute root (joinStrings "/" names) =
      Location.path (absoluteParts root (joinStrings "/" names)) := rfl
  rw [habs, absoluteParts, if_neg (by simp [hrelative]), hparts,
    collapse_append_names false _ hnames, absoluteParts_of_absolute h]

/-- Only a slash and a backslash are turned into the same character. -/
theorem map_turned_injective {text other : List Char} (h : '/' ∉ text) (hother : '/' ∉ other)
    (hsame : text.map turned = other.map turned) : text = other := by
  induction text generalizing other with
  | nil => exact (List.map_eq_nil_iff.mp hsame.symm).symm
  | cons c text ih =>
    cases other with
    | nil => cases hsame
    | cons d other =>
      rw [List.mem_cons, not_or] at h hother
      rw [List.map_cons, List.map_cons, List.cons.injEq] at hsame
      have hcd : c = d := by
        have hturned := hsame.1
        unfold turned at hturned
        grind
      rw [hcd, ih h.2 hother.2 hsame.2]

section

variable {dirs : List String} {stem extension : String}

/-- A last part that ends in an extension is a name. -/
theorem isName_of_extension (before : List Char) (hslash : '/' ∉ before ++ extension.toList)
    (hlong : 3 ≤ extension.toList.length) :
    IsName (String.ofList (before ++ extension.toList)) := by
  have hne : ∀ other : String, other.toList.length < 3 →
      String.ofList (before ++ extension.toList) ≠ other := by
    intro other hshort same
    rw [← same, String.toList_ofList, List.length_append] at hshort
    omega
  refine ⟨hne "" (by decide), hne "." (by decide), hne ".." (by decide), ?_⟩
  rwa [String.toList_ofList]

/-- The path of a file from a root, up to its name and behind it. -/
theorem toList_joinStrings_file (hdirs : dirs ≠ []) (stem extension : String) :
    (joinStrings "/" (dirs ++ [stem ++ extension])).toList =
      (joinStrings "/" dirs).toList ++ '/' :: (stem.toList ++ extension.toList) := by
  have happend := String.intercalate_append_of_ne_nil (s := "/") hdirs
    (List.cons_ne_nil (stem ++ extension) [])
  rw [String.intercalate_singleton] at happend
  rw [joinStrings, happend]
  simp [joinStrings]

theorem not_mem_joinStrings {c : Char} (hc : c ≠ '/') (h : ∀ part ∈ names, c ∉ part.toList) :
    c ∉ (joinStrings "/" names).toList := by
  intro mem
  have hslash : "/".toList = ['/'] := rfl
  rw [toList_joinStrings hslash] at mem
  rcases mem_join mem with same | ⟨piece, hpiece, hmem⟩
  · exact hc same
  · obtain ⟨part, hpart, rfl⟩ := List.mem_map.mp hpiece
    exact h part hpart hmem

/-- A name behind a slash is the last name of where a path leads. -/
theorem absolute_append_name (h : IsName part) (cwd before : String) :
    ∃ l : Location, (∀ name ∈ l, IsName name) ∧
      absolute cwd (before ++ "/" ++ part) = Location.path (l ++ [part]) := by
  have hpart : ∀ name ∈ [part], IsName name := by simpa using h
  have habsolute : absolute cwd (before ++ "/" ++ part) =
      Location.path (absoluteParts cwd (before ++ "/" ++ part)) := rfl
  have hparts : ∃ l, absoluteParts cwd (before ++ "/" ++ part) = l ++ [part] := by
    rw [absoluteParts, parts_append_slash, parts_of_noSlash h.noSlash]
    split
    · exact ⟨_, collapse_append_names false _ hpart⟩
    · rw [← List.append_assoc]
      exact ⟨_, collapse_append_names false _ hpart⟩
  obtain ⟨l, hl⟩ := hparts
  refine ⟨l, fun name mem => ?_, by rw [habsolute, hl]⟩
  exact isName_of_mem_absoluteParts (hl ▸ List.mem_append_left [part] mem)

/-- Behind the last backslash of a text begins a part of its own. -/
theorem map_turned_of_mem {text : List Char} (h : '\\' ∈ text) :
    ∃ before behind, text.map turned = before ++ '/' :: behind ∧ '/' ∉ behind ∧
      '\\' ∉ behind := by
  have hturned : '/' ∈ (text.map turned).reverse :=
    List.mem_reverse.mpr (List.mem_map.mpr ⟨_, h, rfl⟩)
  obtain ⟨behind, before, hsplit, hbehind⟩ := List.eq_append_cons_of_mem hturned
  have htext : text.map turned = before.reverse ++ '/' :: behind.reverse := by
    rw [← List.reverse_reverse (text.map turned), hsplit]
    simp
  refine ⟨before.reverse, behind.reverse, htext, by simpa using hbehind, fun mem => ?_⟩
  exact not_mem_map_turned text (htext ▸ List.mem_append_right _ (List.mem_cons_of_mem _ mem))

/-- With its backslashes turned, the path of a file leads to a name without any. -/
theorem absolute_turned (hdirs : dirs ≠ []) (hplain : ∀ part ∈ dirs, '\\' ∉ part.toList)
    (hfile : IsName (stem ++ extension)) (hextension : '\\' ∉ extension.toList)
    (hlong : 3 ≤ extension.toList.length) (hstem : '\\' ∈ stem.toList) (root : String) :
    ∃ (l : Location) (name : String), (∀ part ∈ l ++ [name], IsName part) ∧ '\\' ∉ name.toList ∧
      absolute root (String.ofList
        ((joinStrings "/" (dirs ++ [stem ++ extension])).toList.map turned)) =
          Location.path (l ++ [name]) := by
  obtain ⟨before, behind, hturned, hbehind, hplainBehind⟩ := map_turned_of_mem hstem
  have hlast : IsName (String.ofList (behind ++ extension.toList)) := by
    refine isName_of_extension behind (fun mem => ?_) hlong
    rcases List.mem_append.mp mem with mem | mem
    · exact hbehind mem
    · exact hfile.noSlash (by rw [String.toList_append]; exact List.mem_append_right _ mem)
  have hmade : String.ofList ((joinStrings "/" (dirs ++ [stem ++ extension])).toList.map turned) =
      String.ofList ((joinStrings "/" dirs).toList ++ '/' :: before) ++ "/" ++
        String.ofList (behind ++ extension.toList) := by
    rw [toList_joinStrings_file hdirs, List.map_append, List.map_cons, List.map_append,
      map_turned (not_mem_joinStrings (by decide) hplain), map_turned hextension, hturned,
      ← String.toList_inj]
    simp [turned]
  obtain ⟨l, hl, habsolute⟩ := absolute_append_name hlast root
    (String.ofList ((joinStrings "/" dirs).toList ++ '/' :: before))
  refine ⟨l, _, fun part mem => ?_, ?_, hmade ▸ habsolute⟩
  · exact (List.mem_append.mp mem).elim (hl part) fun mem => List.mem_singleton.mp mem ▸ hlast
  · rw [String.toList_ofList, List.mem_append, not_or]
    exact ⟨hplainBehind, hextension⟩

/-- **The path of a file from a root leads back to it exactly if no backslash stands in its name.**
The directories on the way hold none. -/
theorem absolute_rootRelative_iff (h : isAbsolute root = true) (hdirs : dirs ≠ [])
    (hnames : ∀ part ∈ dirs, IsName part) (hplain : ∀ part ∈ dirs, '\\' ∉ part.toList)
    (hfile : IsName (stem ++ extension)) (hextension : '\\' ∉ extension.toList)
    (hlong : 3 ≤ extension.toList.length) :
    absolute root (rootRelative cwd
        (Location.path (absoluteParts cwd root ++ (dirs ++ [stem ++ extension]))) root) =
      Location.path (absoluteParts cwd root ++ (dirs ++ [stem ++ extension])) ↔
    '\\' ∉ stem.toList := by
  have hne : dirs ++ [stem ++ extension] ≠ [] := by simp
  have hall : ∀ part ∈ dirs ++ [stem ++ extension], IsName part := by
    intro part mem
    rcases List.mem_append.mp mem with mem | mem
    · exact hnames part mem
    · exact List.mem_singleton.mp mem ▸ hfile
  rw [rootRelative_path hne hall]
  constructor
  · intro hback hstem
    obtain ⟨l, name, hl, hname, habsolute⟩ :=
      absolute_turned hdirs hplain hfile hextension hlong hstem root
    rw [habsolute] at hback
    have hsame := path_injective hl
      (fun part mem => (List.mem_append.mp mem).elim isName_of_mem_absoluteParts (hall part)) hback
    -- The last names differ: one holds a backslash, the other does not.
    rw [← List.append_assoc] at hsame
    have hnames := (List.append_inj' hsame rfl).2
    refine hname ?_
    rw [List.singleton_inj.mp hnames, String.toList_append]
    exact List.mem_append_left _ hstem
  · intro hstem
    have hnone : '\\' ∉ (joinStrings "/" (dirs ++ [stem ++ extension])).toList := by
      refine not_mem_joinStrings (by decide) fun part mem => ?_
      rcases List.mem_append.mp mem with mem | mem
      · exact hplain part mem
      · rw [List.mem_singleton.mp mem, String.toList_append, List.mem_append, not_or]
        exact ⟨hstem, hextension⟩
    rw [map_turned hnone, String.ofList_toList]
    exact absolute_joinStrings h hne hall

end

/-- Two names in one directory do not get the same path from a root. -/
theorem rootRelative_injective {dirs : List String} {name other : String} (hdirs : dirs ≠ [])
    (hnames : ∀ part ∈ dirs, IsName part) (hname : IsName name) (hother : IsName other)
    (h : rootRelative cwd (Location.path (absoluteParts cwd root ++ (dirs ++ [name]))) root =
      rootRelative cwd (Location.path (absoluteParts cwd root ++ (dirs ++ [other]))) root) :
    name = other := by
  have hall : ∀ {last : String}, IsName last → ∀ part ∈ dirs ++ [last], IsName part := by
    intro last hlast part mem
    exact (List.mem_append.mp mem).elim (hnames part)
      fun mem => List.mem_singleton.mp mem ▸ hlast
  rw [rootRelative_path (by simp) (hall hname), rootRelative_path (by simp) (hall hother),
    String.ofList_inj] at h
  have hchars : ∀ last : String, (joinStrings "/" (dirs ++ [last])).toList =
      (joinStrings "/" dirs).toList ++ '/' :: last.toList := by
    intro last
    simpa using toList_joinStrings_file hdirs last ""
  rw [hchars, hchars, List.map_append, List.map_append, List.map_cons, List.map_cons] at h
  have hsame := (List.cons_inj_right _).mp (List.append_cancel_left h)
  exact String.toList_inj.mp (map_turned_injective hname.noSlash hother.noSlash hsame)

/-! ## The home directory -/

theorem isAbsolute_normalize (h : isAbsolute path = true) : isAbsolute (normalize path) = true := by
  rw [normalize_eq h, Location.path, String.append_assoc]
  exact isAbsolute_iff.mpr ⟨_, String.toList_append⟩

/-- A path behind an absolute one is absolute. -/
theorem isAbsolute_join (h : isAbsolute root = true) (path : String) :
    isAbsolute (join root path) = true := by
  refine isAbsolute_normalize ?_
  obtain ⟨rest, hrest⟩ := isAbsolute_iff.mp h
  rw [List.filter_cons_of_pos (by simpa using ne_empty_of_isAbsolute h)]
  by_cases hpath : path = ""
  · simpa [hpath, joinStrings] using h
  · simp [hpath, joinStrings, isAbsolute, hrest]

theorem expandHome_of_absolute (h : isAbsolute path = true) (home : String) :
    expandHome home path = path := by
  obtain ⟨rest, hrest⟩ := isAbsolute_iff.mp h
  simp [expandHome, hrest]

/-- A path is as it was, or absolute, once the home directory stands in it. -/
theorem expandHome_eq_or_isAbsolute {home : String} (h : isAbsolute home = true) (path : String) :
    expandHome home path = path ∨ isAbsolute (expandHome home path) = true := by
  unfold expandHome
  split
  · exact .inr h
  · exact .inr (isAbsolute_join h _)
  · exact .inl rfl

/-- A path in which the home directory stands already stays as it is. -/
theorem expandHome_expandHome {home : String} (h : isAbsolute home = true) (path : String) :
    expandHome home (expandHome home path) = expandHome home path := by
  rcases expandHome_eq_or_isAbsolute h path with hsame | habsolute
  · rw [hsame, hsame]
  · exact expandHome_of_absolute habsolute home

theorem expandHome_ne_empty {home : String} (h : isAbsolute home = true) (hpath : path ≠ "") :
    expandHome home path ≠ "" := by
  rcases expandHome_eq_or_isAbsolute h path with hsame | habsolute
  · rwa [hsame]
  · exact ne_empty_of_isAbsolute habsolute

end GoldenRun.Path
