import GoldenRun.Text.Split

/-!
# Pieces of a text

Cutting and joining undo each other, as long as no piece holds the separator.

* `split_append_cons`: a text is cut at a separator into what is before it and what is behind it
* `split_join`: pieces written with separators between them are found again
* `infix_or_infix`: a block without a separator stands on one side of it
-/

namespace GoldenRun.Text

variable {sep : Char}

/-- A cut at a separator parts the pieces before it from those behind it. -/
theorem split_append_cons (sep : Char) (before behind : List Char) :
    split sep (before ++ sep :: behind) = split sep before ++ split sep behind := by
  induction before with
  | nil => simp [split]
  | cons c before ih =>
    rw [List.cons_append, split, split]
    by_cases h : c = sep
    · rw [if_pos h, if_pos h, ih, List.cons_append]
    · rw [if_neg h, if_neg h, ih]
      cases hs : split sep before with
      | nil => exact absurd hs (split_ne_nil sep before)
      | cons piece pieces => rfl

/-- A text without a separator is one piece. -/
theorem split_of_not_mem {text : List Char} (h : sep ∉ text) : split sep text = [text] := by
  induction text with
  | nil => rfl
  | cons c rest ih =>
    have hc : c ≠ sep := fun same => h (same ▸ List.mem_cons_self)
    have hrest : sep ∉ rest := fun mem => h (List.mem_cons_of_mem c mem)
    rw [split, if_neg hc, ih hrest]

theorem join_cons {piece : List Char} {pieces : List (List Char)} (h : pieces ≠ []) :
    join sep (piece :: pieces) = piece ++ sep :: join sep pieces := by
  cases pieces with
  | nil => exact absurd rfl h
  | cons next pieces => rfl

/-- The pieces behind the first each have a separator before them. -/
theorem join_eq_flatMap (piece : List Char) (pieces : List (List Char)) :
    join sep (piece :: pieces) = piece ++ pieces.flatMap (sep :: ·) := by
  induction pieces generalizing piece with
  | nil => exact (List.append_nil piece).symm
  | cons next pieces ih => rw [join_cons (List.cons_ne_nil _ _), ih, List.flatMap_cons]; rfl

theorem join_append {before : List (List Char)} (h : before ≠ []) (behind : List (List Char)) :
    join sep (before ++ behind) = join sep before ++ behind.flatMap (sep :: ·) := by
  obtain ⟨piece, pieces, rfl⟩ := List.exists_cons_of_ne_nil h
  rw [List.cons_append, join_eq_flatMap, join_eq_flatMap, List.flatMap_append, List.append_assoc]

/-- Pieces without a separator are found again when they are joined. -/
theorem split_join {pieces : List (List Char)} (hne : pieces ≠ [])
    (h : ∀ piece ∈ pieces, sep ∉ piece) : split sep (join sep pieces) = pieces := by
  induction pieces with
  | nil => exact absurd rfl hne
  | cons piece rest ih =>
    have hpiece := h piece List.mem_cons_self
    by_cases hrest : rest = []
    · subst hrest
      exact split_of_not_mem hpiece
    · have hpieces := ih hrest fun p mem => h p (List.mem_cons_of_mem piece mem)
      rw [join_cons hrest, split_append_cons, split_of_not_mem hpiece, hpieces,
        List.singleton_append]

/-- What is joined holds the characters of the pieces and separators. -/
theorem mem_join {c : Char} {pieces : List (List Char)} (h : c ∈ join sep pieces) :
    c = sep ∨ ∃ piece ∈ pieces, c ∈ piece := by
  fun_induction join sep pieces with
  | case1 => cases h
  | case2 piece => exact .inr ⟨piece, List.mem_cons_self, h⟩
  | case3 piece pieces _ ih =>
    rcases List.mem_append.mp h with h | h
    · exact .inr ⟨piece, List.mem_cons_self, h⟩
    · rcases List.mem_cons.mp h with rfl | h
      · exact .inl rfl
      · exact (ih h).imp id fun ⟨p, mem, hc⟩ => ⟨p, List.mem_cons_of_mem piece mem, hc⟩

/-- What is in a piece is in the text. -/
theorem mem_of_mem_split {c : Char} {text piece : List Char} (h : piece ∈ split sep text)
    (hc : c ∈ piece) : c ∈ text := by
  induction text generalizing piece with
  | nil => simp [split] at h; simp [h] at hc
  | cons d text ih =>
    rw [split] at h
    split at h
    · rcases List.mem_cons.mp h with rfl | h
      · cases hc
      · exact List.mem_cons_of_mem d (ih h hc)
    · cases hs : split sep text with
      | nil => exact absurd hs (split_ne_nil sep text)
      | cons first pieces =>
        rw [hs] at h ih
        rcases List.mem_cons.mp h with rfl | h
        · rcases List.mem_cons.mp hc with rfl | hc
          · exact List.mem_cons_self
          · exact List.mem_cons_of_mem d (ih List.mem_cons_self hc)
        · exact List.mem_cons_of_mem d (ih (List.mem_cons_of_mem first h) hc)

/-- Strings are joined as their characters are. -/
theorem toList_joinStrings {between : String} (h : between.toList = [sep])
    (pieces : List String) :
    (joinStrings between pieces).toList = join sep (pieces.map String.toList) := by
  unfold joinStrings
  induction pieces with
  | nil => rfl
  | cons piece rest ih =>
    cases rest with
    | nil => simp [join]
    | cons next rest =>
      rw [String.intercalate_cons_cons, String.toList_append, String.toList_append, h, ih]
      simp [join]

/-- A block that does not hold what parts two others stands in one of them. -/
theorem infix_or_infix {α : Type} {sep : α} {block front behind : List α} (hsep : sep ∉ block)
    (h : block <:+: front ++ sep :: behind) : block <:+: front ∨ block <:+: behind := by
  obtain ⟨before, tail, heq⟩ := h
  rcases List.append_eq_append_iff.mp heq with ⟨rest, rfl, -⟩ | ⟨rest, hfront, hbehind⟩
  · exact .inl ⟨before, rest, rfl⟩
  cases rest with
  | nil => exact .inl ⟨before, [], by simpa using hfront⟩
  | cons first rest =>
    obtain ⟨rfl, rfl⟩ := List.cons_eq_cons.mp hbehind
    rcases List.append_eq_append_iff.mp hfront with ⟨piece, -, rfl⟩ | ⟨piece, -, hpiece⟩
    · exact absurd (by simp) hsep
    · cases piece with
      | nil =>
        have hmem : sep ∈ [] ++ block := hpiece ▸ List.mem_cons_self
        exact absurd hmem hsep
      | cons first piece =>
        obtain ⟨rfl, rfl⟩ := List.cons_eq_cons.mp hpiece
        exact .inr ⟨piece, tail, rfl⟩

end GoldenRun.Text
