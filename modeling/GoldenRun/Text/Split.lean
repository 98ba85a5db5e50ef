/-!
# Splitting and searching text

A text is cut at every occurrence of one character: `split sep` gives the pieces between the
separators, so there is always one piece more than there are separators, and joining the pieces
with the separator gives the text back (`join_split`).  `occursIn` asks whether one text stands
inside another as a contiguous block.

Both are structural recursions on the text.
-/

namespace GoldenRun.Text

/-- The pieces of a text between the occurrences of `sep`. -/
def split (sep : Char) : List Char → List (List Char)
  | [] => [[]]
  | c :: rest =>
    if c = sep then [] :: split sep rest
    else match split sep rest with
      | [] => [[c]]
      | piece :: pieces => (c :: piece) :: pieces

/-- The pieces with `sep` written between them. -/
def join (sep : Char) : List (List Char) → List Char
  | [] => []
  | [piece] => piece
  | piece :: pieces => piece ++ sep :: join sep pieces

theorem split_ne_nil (sep : Char) (text : List Char) : split sep text ≠ [] := by
  induction text with
  | nil => simp [split]
  | cons c rest ih =>
    unfold split
    split
    · simp
    · split <;> simp

/-- Joining the pieces gives the text back. -/
theorem join_split (sep : Char) (text : List Char) : join sep (split sep text) = text := by
  induction text with
  | nil => rfl
  | cons c rest ih =>
    unfold split
    split
    next h =>
      cases hs : split sep rest with
      | nil => exact absurd hs (split_ne_nil sep rest)
      | cons piece pieces => rw [join, ← hs, ih]; simp [h]; simp
    next h =>
      cases hs : split sep rest with
      | nil => exact absurd hs (split_ne_nil sep rest)
      | cons piece pieces =>
        rw [hs] at ih
        cases pieces with
        | nil => simpa [join] using ih
        | cons p ps => simpa [join] using ih

/-- No piece holds the separator. -/
theorem not_mem_of_mem_split {sep : Char} {text piece : List Char}
    (h : piece ∈ split sep text) : sep ∉ piece := by
  induction text generalizing piece with
  | nil => simp [split] at h; simp [h]
  | cons c rest ih =>
    unfold split at h
    split at h
    next => rcases List.mem_cons.1 h with rfl | h
            · simp
            · exact ih h
    next hc =>
      cases hs : split sep rest with
      | nil => exact absurd hs (split_ne_nil sep rest)
      | cons p ps =>
        rw [hs] at h ih
        rcases List.mem_cons.1 h with rfl | h
        · intro hm
          rcases List.mem_cons.1 hm with rfl | hm
          · exact hc rfl
          · exact ih List.mem_cons_self hm
        · exact ih (List.mem_cons_of_mem _ h)

/-- The pieces of a string between the occurrences of `sep`. -/
def splitString (sep : Char) (text : String) : List String :=
  (split sep text.toList).map String.ofList

/-- The pieces of a string with `sep` written between them. -/
def joinStrings (sep : String) (pieces : List String) : String :=
  sep.intercalate pieces

/-- Whether `needle` stands in `text` as a contiguous block. -/
def occursIn (needle : List Char) : List Char → Bool
  | [] => needle.isEmpty
  | c :: rest => needle.isPrefixOf (c :: rest) || occursIn needle rest

/-- `occursIn` finds exactly the contiguous blocks. -/
theorem occursIn_iff {needle text : List Char} :
    occursIn needle text = true ↔ ∃ before after, text = before ++ needle ++ after := by
  induction text with
  | nil =>
    simp only [occursIn, List.isEmpty_iff]
    constructor
    · rintro rfl; exact ⟨[], [], rfl⟩
    · rintro ⟨before, after, h⟩
      have := congrArg List.length h
      simp only [List.length_nil, List.length_append] at this
      exact List.length_eq_zero_iff.1 (by omega)
  | cons c rest ih =>
    simp only [occursIn, Bool.or_eq_true, List.isPrefixOf_iff_prefix]
    constructor
    · rintro (⟨after, h⟩ | h)
      · exact ⟨[], after, by simp [h]⟩
      · obtain ⟨before, after, h⟩ := ih.1 h
        exact ⟨c :: before, after, by simp [h]⟩
    · rintro ⟨before, after, h⟩
      cases before with
      | nil => exact .inl ⟨after, by simpa using h.symm⟩
      | cons b bs =>
        right
        simp only [List.cons_append, List.cons.injEq] at h
        exact ih.2 ⟨bs, after, h.2⟩

end GoldenRun.Text
