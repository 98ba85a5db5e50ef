import GoldenRun.Proofs.Text.Split

/-!
# Lines of a text

A line stands between two line ends, or between one of them and an end of the text.  The lines of a
text are its pieces, and each line end begins another one.

* `isLine_iff_getElem?`: the line with a number is the piece at its place
* `infix_iff_standsIn`: a block without a line end stands in a text if it stands in one of its lines
-/

namespace GoldenRun.Text

variable {text line block : List Char} {sep : Char} {n i : Nat}

/-- `IsLine text line n`: the line with the number `n`, counted from 1, is `line`. -/
def IsLine (text line : List Char) (n : Nat) : Prop :=
  ∃ before after, text = before ++ line ++ after ∧ '\n' ∉ line ∧
    (before = [] ∨ before.getLast? = some '\n') ∧ (after = [] ∨ after.head? = some '\n') ∧
    n = before.count '\n' + 1

/-- A block stands in one line of a text. -/
def StandsIn (block text : List Char) : Prop := ∃ line n, IsLine text line n ∧ block <:+: line

/-- There is one piece more than there are separators. -/
theorem length_split (sep : Char) (text : List Char) :
    (split sep text).length = text.count sep + 1 := by
  induction text with
  | nil => rfl
  | cons c text ih =>
    rw [split]
    by_cases h : c = sep
    · rw [if_pos h, List.length_cons, ih, h, List.count_cons_self]
    · rw [if_neg h, List.count_cons_of_ne h, ← ih]
      cases hs : split sep text with
      | nil => exact absurd hs (split_ne_nil sep text)
      | cons piece pieces => rfl

/-- What stands before a line is cut into as many pieces as there are line ends in it, apart from
the line that begins behind it. -/
theorem split_before {before : List Char} (h : before = [] ∨ before.getLast? = some '\n')
    (rest : List Char) :
    ∃ front, front.length = before.count '\n' ∧
      split '\n' (before ++ rest) = front ++ split '\n' rest := by
  rcases h with rfl | h
  · exact ⟨[], rfl, rfl⟩
  · obtain ⟨lead, rfl⟩ := List.getLast?_eq_some_iff.mp h
    refine ⟨split '\n' lead, ?_, ?_⟩
    · rw [length_split, List.count_append, List.count_singleton_self]
    · rw [List.append_assoc]
      exact split_append_cons '\n' lead rest

theorem split_line {after : List Char} (hline : '\n' ∉ line)
    (h : after = [] ∨ after.head? = some '\n') :
    ∃ back, split '\n' (line ++ after) = line :: back := by
  rcases h with rfl | h
  · exact ⟨[], by rw [List.append_nil, split_of_not_mem hline]⟩
  · obtain ⟨rest, rfl⟩ := List.head?_eq_some_iff.mp h
    exact ⟨split '\n' rest, by rw [split_append_cons, split_of_not_mem hline]; rfl⟩

/-- Before a piece stand as many separators as pieces, and one of them right before it. -/
theorem exists_join_eq_append {front : List (List Char)} (h : ∀ piece ∈ front, sep ∉ piece)
    (piece : List Char) (back : List (List Char)) :
    ∃ before, join sep (front ++ piece :: back) = before ++ piece ++ back.flatMap (sep :: ·) ∧
      (before = [] ∨ before.getLast? = some sep) ∧ before.count sep = front.length := by
  by_cases hfront : front = []
  · subst hfront
    exact ⟨[], join_eq_flatMap piece back, .inl rfl, rfl⟩
  · refine ⟨join sep front ++ [sep], ?_, .inr List.getLast?_concat, ?_⟩
    · rw [join_append hfront, List.flatMap_cons, List.append_assoc, List.append_assoc]
      rfl
    · rw [List.count_append, List.count_singleton_self, ← length_split, split_join hfront h]

/-- The line with a number is the piece at its place. -/
theorem isLine_iff_getElem? : IsLine text line (i + 1) ↔ (split '\n' text)[i]? = some line := by
  constructor
  · rintro ⟨before, after, rfl, hline, hbefore, hafter, hnumber⟩
    obtain ⟨front, hlength, hfront⟩ := split_before hbefore (line ++ after)
    obtain ⟨back, hback⟩ := split_line hline hafter
    have hi : i = front.length := by omega
    rw [List.append_assoc, hfront, hback, hi, List.getElem?_append_right (Nat.le_refl _),
      Nat.sub_self]
    rfl
  · intro h
    obtain ⟨hi, hpiece⟩ := List.getElem?_eq_some_iff.mp h
    have hpieces : split '\n' text =
        (split '\n' text).take i ++ line :: (split '\n' text).drop (i + 1) := by
      rw [← hpiece, ← List.drop_eq_getElem_cons hi, List.take_append_drop]
    have hfront : ∀ piece ∈ (split '\n' text).take i, '\n' ∉ piece := fun piece hmem =>
      not_mem_of_mem_split (List.mem_of_mem_take hmem)
    obtain ⟨before, hjoin, hbefore, hcount⟩ :=
      exists_join_eq_append hfront line ((split '\n' text).drop (i + 1))
    rw [← hpieces, join_split] at hjoin
    refine ⟨before, _, hjoin, not_mem_of_mem_split (List.mem_of_getElem? h), hbefore, ?_, ?_⟩
    · cases (split '\n' text).drop (i + 1) with
      | nil => exact .inl rfl
      | cons piece pieces => exact .inr rfl
    · rw [hcount, List.length_take, Nat.min_eq_left (Nat.le_of_lt hi)]

/-- Something is a line if it is a piece. -/
theorem exists_isLine_iff_mem : (∃ n, IsLine text line n) ↔ line ∈ split '\n' text := by
  rw [List.mem_iff_getElem?]
  constructor
  · rintro ⟨n, hline⟩
    obtain ⟨before, -, -, -, -, -, rfl⟩ := id hline
    exact ⟨_, isLine_iff_getElem?.mp hline⟩
  · rintro ⟨i, hpiece⟩
    exact ⟨i + 1, isLine_iff_getElem?.mpr hpiece⟩

/-- A block without a separator stands in one piece. -/
theorem exists_mem_split_of_infix {text : List Char} (h : sep ∉ block) (hblock : block <:+: text) :
    ∃ piece ∈ split sep text, block <:+: piece := by
  by_cases hmem : sep ∈ text
  · -- The text is cut at its first separator; what is behind is shorter.
    obtain ⟨front, behind, htext, hfront⟩ := List.eq_append_cons_of_mem hmem
    rw [htext] at hblock
    rw [htext, split_append_cons, split_of_not_mem hfront]
    rcases infix_or_infix h hblock with hblock | hblock
    · exact ⟨front, by simp, hblock⟩
    · obtain ⟨piece, hpiece, hblock⟩ := exists_mem_split_of_infix h hblock
      exact ⟨piece, by simp [hpiece], hblock⟩
  · exact ⟨text, by simp [split_of_not_mem hmem], hblock⟩
termination_by text.length
decreasing_by simp [htext]; omega

/-- A block without a line end never stands in two lines at once. -/
theorem infix_iff_standsIn (h : '\n' ∉ block) : block <:+: text ↔ StandsIn block text := by
  constructor
  · intro hblock
    obtain ⟨line, hmem, hblock⟩ := exists_mem_split_of_infix h hblock
    obtain ⟨n, hline⟩ := exists_isLine_iff_mem.mpr hmem
    exact ⟨line, n, hline, hblock⟩
  · rintro ⟨line, n, ⟨before, after, rfl, -⟩, hblock⟩
    exact hblock.trans ⟨before, after, rfl⟩

end GoldenRun.Text
