import GoldenRun.Proofs.Path

/-!
# A name written behind a path that is joined already

To join paths carries out the `.` and `..` in them.  Once this is done it has nothing left to do, so
a further name is merely written behind.

* `collapse_of_settled`: parts in which nothing is left to carry out stay as they are
* `join_joinAll`: a name behind a path that was joined and ends in a name
-/

namespace GoldenRun.Path

open GoldenRun.Text

variable {canClimb absolute : Bool} {part name last path : String} {names stack laid : List String}

/-! ## Parts in which nothing is left to carry out -/

/-- A stack of parts, the last in front, in which nothing is left to carry out: all parts that climb
lie below all names, and there are none where one cannot climb. -/
inductive Settled (canClimb : Bool) : List String → Prop where
  /-- No part. -/
  | nothing : Settled canClimb []
  /-- A part that climbs, on others. -/
  | climb {below : List String} (h : canClimb = true) (hbelow : ∀ part ∈ below, part = "..") :
      Settled canClimb (".." :: below)
  /-- A name on top. -/
  | name {part : String} {below : List String} (h : IsName part)
      (hbelow : Settled canClimb below) : Settled canClimb (part :: below)

namespace Settled

/-- Parts that climb are settled where one can climb. -/
theorem of_climbing (h : canClimb = true) (hstack : ∀ part ∈ stack, part = "..") :
    Settled canClimb stack := by
  cases stack with
  | nil => exact .nothing
  | cons top below =>
    obtain ⟨rfl, hbelow⟩ := List.forall_mem_cons.mp hstack
    exact .climb h hbelow

theorem tail (h : Settled canClimb (part :: stack)) : Settled canClimb stack := by
  cases h with
  | climb hclimb hbelow => exact of_climbing hclimb hbelow
  | name _ hbelow => exact hbelow

theorem of_append (h : Settled canClimb (laid ++ stack)) : Settled canClimb stack := by
  induction laid with
  | nil => exact h
  | cons part laid ih => exact ih h.tail

/-- A settled part is neither empty nor more than one. -/
theorem plain_of_mem (h : Settled canClimb stack) (hpart : part ∈ stack) :
    part ≠ "" ∧ '/' ∉ part.toList := by
  have hdots : ".." ≠ "" ∧ '/' ∉ "..".toList := by decide
  induction h with
  | nothing => cases hpart
  | climb _ hbelow =>
    rcases List.mem_cons.mp hpart with rfl | hpart
    · exact hdots
    · rw [hbelow part hpart]
      exact hdots
  | name hname _ ih =>
    rcases List.mem_cons.mp hpart with rfl | hpart
    · exact ⟨hname.nonempty, hname.noSlash⟩
    · exact ih hpart

/-- One more part that is laid is carried out at once. -/
theorem layPart (h : Settled canClimb stack) (hpart : '/' ∉ part.toList) :
    Settled canClimb (layPart canClimb stack part) := by
  unfold Path.layPart
  split
  · exact h
  · next hplain =>
    obtain ⟨hempty, hdot⟩ := not_or.mp hplain
    split
    · cases h with
      | nothing =>
        dsimp only
        split
        · next hclimb => exact .climb hclimb (by simp)
        · exact .nothing
      | climb hclimb hbelow =>
        dsimp only
        rw [if_pos rfl]
        exact .climb hclimb (List.forall_mem_cons.mpr ⟨rfl, hbelow⟩)
      | name hname hbelow =>
        dsimp only
        rw [if_neg hname.notDots]
        exact hbelow
    · next hdots => exact .name ⟨hempty, hdot, hdots, hpart⟩ h

theorem foldl_layPart {parts : List String} (h : Settled canClimb stack)
    (hparts : ∀ part ∈ parts, '/' ∉ part.toList) :
    Settled canClimb (parts.foldl (Path.layPart canClimb) stack) := by
  induction parts generalizing stack with
  | nil => exact h
  | cons part parts ih =>
    obtain ⟨hpart, hparts⟩ := List.forall_mem_cons.mp hparts
    exact ih (h.layPart hpart) hparts

/-- What remains of a path is settled. -/
theorem collapse {parts : List String} (h : ∀ part ∈ parts, '/' ∉ part.toList) :
    Settled canClimb (collapse canClimb parts).reverse := by
  rw [Path.collapse, List.reverse_reverse]
  exact foldl_layPart .nothing h

theorem append_names (h : Settled canClimb stack) (hnames : ∀ part ∈ names, IsName part) :
    Settled canClimb (names ++ stack) := by
  induction names with
  | nil => exact h
  | cons part names ih =>
    obtain ⟨hpart, hnames⟩ := List.forall_mem_cons.mp hnames
    exact .name hpart (ih hnames)

end Settled

/-- A part that is settled is laid on top. -/
theorem layPart_of_settled (h : Settled canClimb (part :: stack)) :
    layPart canClimb stack part = part :: stack := by
  cases h with
  | climb hclimb hbelow =>
    unfold layPart
    rw [if_neg (by decide), if_pos rfl]
    cases stack with
    | nil => exact if_pos hclimb
    | cons top below => exact if_pos (hbelow top List.mem_cons_self)
  | name hname _ => exact layPart_name hname canClimb stack

/-- Parts in which nothing is left to carry out stay as they are. -/
theorem collapse_of_settled (h : Settled canClimb names.reverse) :
    collapse canClimb names = names := by
  have hlay : ∀ stack, Settled canClimb (names.reverse ++ stack) →
      names.foldl (layPart canClimb) stack = names.reverse ++ stack := by
    clear h
    induction names with
    | nil => exact fun _ _ => rfl
    | cons part names ih =>
      intro stack h
      rw [List.reverse_cons, List.append_assoc, List.singleton_append] at h ⊢
      rw [List.foldl_cons, layPart_of_settled h.of_append, ih _ h]
  rw [collapse, hlay [] (by simpa using h), List.append_nil, List.reverse_reverse]

/-! ## Paths made of such parts -/

/-- The path that is made of some parts, from the root or from elsewhere. -/
def ofParts (absolute : Bool) (names : List String) : String :=
  (if absolute then "/" else "") ++ joinStrings "/" names

theorem isAbsolute_append (hpath : path ≠ "") (behind : String) :
    isAbsolute (path ++ behind) = isAbsolute path := by
  unfold isAbsolute
  rw [String.toList_append]
  cases hchars : path.toList with
  | nil => exact absurd (String.toList_eq_nil_iff.mp hchars) hpath
  | cons c rest => rfl

theorem isAbsolute_ofParts (hne : names ≠ [])
    (h : ∀ part ∈ names, part ≠ "" ∧ '/' ∉ part.toList) :
    isAbsolute (ofParts absolute names) = absolute := by
  cases absolute with
  | false => simpa [ofParts] using isAbsolute_joinStrings hne h
  | true => simp [isAbsolute, ofParts]

theorem parts_ofParts (hne : names ≠ []) (h : ∀ part ∈ names, '/' ∉ part.toList) :
    parts (ofParts absolute names) = (if absolute then [""] else []) ++ names := by
  have hjoined := parts_joinStrings hne h
  cases absolute with
  | false => simpa [ofParts] using hjoined
  | true =>
    have hpath : ofParts true names = "" ++ "/" ++ joinStrings "/" names := by simp [ofParts]
    rw [hpath, parts_append_slash, hjoined, parts_of_noSlash (by simp)]
    rfl

theorem ofParts_concat (hne : names ≠ []) (name : String) :
    ofParts absolute (names ++ [name]) = ofParts absolute names ++ "/" ++ name := by
  have happend := String.intercalate_append_of_ne_nil (s := "/") hne (List.cons_ne_nil name [])
  rw [String.intercalate_singleton] at happend
  rw [ofParts, joinStrings, happend, ofParts, joinStrings]
  simp only [String.append_assoc]

theorem ofParts_ne_empty (hne : names ≠ [])
    (h : ∀ part ∈ names, part ≠ "" ∧ '/' ∉ part.toList) : ofParts absolute names ≠ "" := by
  intro hpath
  have hparts : parts (ofParts absolute names) = (if absolute then [""] else []) ++ names :=
    parts_ofParts hne fun part hpart => (h part hpart).2
  rw [hpath, parts_of_noSlash (by simp)] at hparts
  cases absolute with
  | false =>
    have hnames : names = [""] := by simpa using hparts.symm
    exact (h "" (by simp [hnames])).1 rfl
  | true => exact hne (by simpa using hparts)

/-- A name is merely written behind a path in which nothing is left to carry out. -/
theorem join_ofParts (hne : names ≠ []) (h : Settled (!absolute) names.reverse)
    (hname : IsName name) :
    join (ofParts absolute names) name = ofParts absolute names ++ "/" ++ name := by
  have hplain : ∀ part ∈ names, part ≠ "" ∧ '/' ∉ part.toList := fun part hpart =>
    h.plain_of_mem (List.mem_reverse.mpr hpart)
  have hslash : ∀ part ∈ names, '/' ∉ part.toList := fun part hpart => (hplain part hpart).2
  have hpath : ofParts absolute names ≠ "" := ofParts_ne_empty hne hplain
  have habsolute : isAbsolute (ofParts absolute names ++ "/") = absolute := by
    rw [isAbsolute_append hpath, isAbsolute_ofParts hne hplain]
  have hjoin : join (ofParts absolute names) name =
      normalize (ofParts absolute names ++ "/" ++ name) := by
    simp [join, joinAll, hpath, hname.nonempty, joinStrings]
  have hparts : parts (ofParts absolute names ++ "/" ++ name) =
      (if absolute then [""] else []) ++ names ++ [name] := by
    rw [parts_append_slash, parts_of_noSlash hname.noSlash, parts_ofParts hne hslash]
  have hcollapse : collapse (!absolute) ((if absolute then [""] else []) ++ names) = names := by
    have hfirst : collapse (!absolute) ((if absolute then [""] else []) ++ names) =
        collapse (!absolute) names := by
      cases absolute <;> simp [collapse, Path.layPart]
    rw [hfirst, collapse_of_settled h]
  rw [hjoin, normalize_append_name hname hparts, habsolute, hcollapse]
  exact ofParts_concat hne name

/-- The parts of paths that are joined are the parts of each. -/
theorem parts_joinStrings_eq_flatMap {paths : List String} (hne : paths ≠ []) :
    parts (joinStrings "/" paths) = paths.flatMap parts := by
  induction paths with
  | nil => exact absurd rfl hne
  | cons path paths ih =>
    by_cases hpaths : paths = []
    · simp [hpaths, joinStrings]
    · have hcons : joinStrings "/" (path :: paths) = path ++ "/" ++ joinStrings "/" paths :=
        String.intercalate_cons_of_ne_nil hpaths
      rw [hcons, parts_append_slash, ih hpaths, List.flatMap_cons]

/-- Paths that are joined and end in a name are a path in which nothing is left to carry out. -/
theorem exists_joinAll_eq_ofParts (front : List String) (hlast : IsName last) :
    ∃ absolute names, names ≠ [] ∧ Settled (!absolute) names.reverse ∧
      joinAll (front ++ [last]) = ofParts absolute names := by
  -- The last name ends the text that is normalized, and the parts before it hold no slash.
  obtain ⟨lead, hlead⟩ := exists_joinStrings_concat_eq (front.filter (· ≠ ""))
  have hjoin : joinAll (front ++ [last]) = normalize (lead ++ last) := by
    have hkept : [last].filter (· ≠ "") = [last] := by simp [hlast.nonempty]
    rw [joinAll, List.filter_append, hkept, hlead]
  have hparts : parts (lead ++ last) = (front.filter (· ≠ "")).flatMap parts ++ [last] := by
    rw [← hlead, parts_joinStrings_eq_flatMap (by simp), List.flatMap_append,
      List.flatMap_singleton, parts_of_noSlash hlast.noSlash]
  have hslash : ∀ part ∈ (front.filter (· ≠ "")).flatMap parts, '/' ∉ part.toList := by
    intro part hpart
    obtain ⟨path, -, hpart⟩ := List.mem_flatMap.mp hpart
    exact noSlash_of_mem_parts hpart
  refine ⟨isAbsolute lead,
    collapse (!isAbsolute lead) ((front.filter (· ≠ "")).flatMap parts) ++ [last], by simp, ?_, ?_⟩
  · rw [List.reverse_append]
    exact .append_names (.collapse hslash) (by simpa using hlast)
  · rw [hjoin, normalize_append_name hlast hparts, ofParts]

/-- **A name behind paths that are joined is merely written behind them**, if they end in a name. -/
theorem join_joinAll (front : List String) (hlast : IsName last) (hname : IsName name) :
    join (joinAll (front ++ [last])) name = joinAll (front ++ [last]) ++ "/" ++ name := by
  obtain ⟨absolute, names, hne, hsettled, hjoin⟩ := exists_joinAll_eq_ofParts front hlast
  rw [hjoin, join_ofParts hne hsettled hname]

end GoldenRun.Path
