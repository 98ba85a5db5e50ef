/-!
# Blank characters

The blank characters are the ones that trimming removes: the ASCII blanks and line ends, the
Unicode space separators, the two Unicode line ends and U+FEFF.  A text is blank when it holds
nothing else.
-/

namespace GoldenRun.Text

/-- Whether trimming removes this character. -/
def isBlank (c : Char) : Bool :=
  let n := c.toNat
  (0x09 ≤ n && n ≤ 0x0D) || n == 0x20 || n == 0xA0 || n == 0x1680 ||
    (0x2000 ≤ n && n ≤ 0x200A) || n == 0x2028 || n == 0x2029 || n == 0x202F ||
    n == 0x205F || n == 0x3000 || n == 0xFEFF

/-- Whether a text holds nothing but blank characters. -/
def allBlank (text : List Char) : Bool := text.all isBlank

/-- A text without the blank characters at its end. -/
def trimEnd (text : List Char) : List Char := (text.reverse.dropWhile isBlank).reverse

/-- A text without the blank characters at either end. -/
def trim (text : List Char) : List Char := trimEnd (text.dropWhile isBlank)

/-- A string without the blank characters at its end. -/
def trimEndString (text : String) : String := String.ofList (trimEnd text.toList)

/-- Dropping the blanks in front leaves nothing exactly when every character is blank. -/
theorem dropWhile_isBlank_eq_nil_iff {text : List Char} :
    text.dropWhile isBlank = [] ↔ allBlank text = true := by
  induction text with
  | nil => simp [allBlank]
  | cons c rest ih =>
    by_cases hc : isBlank c = true
    · have all : allBlank (c :: rest) = allBlank rest := by simp [allBlank, hc]
      rw [List.dropWhile_cons_of_pos hc, all]
      exact ih
    · simp [hc, allBlank]

theorem allBlank_reverse (text : List Char) : allBlank text.reverse = allBlank text := by
  simp [allBlank]

/-- Dropping blanks in front of a text that is not blank leaves a text that is not blank. -/
theorem allBlank_dropWhile (text : List Char) :
    allBlank (text.dropWhile isBlank) = allBlank text := by
  induction text with
  | nil => rfl
  | cons c rest ih =>
    by_cases hc : isBlank c = true
    · have all : allBlank (c :: rest) = allBlank rest := by simp [allBlank, hc]
      rw [List.dropWhile_cons_of_pos hc, all]
      exact ih
    · simp [hc, allBlank]

/-- Trimming leaves nothing exactly when every character is blank. -/
theorem trim_eq_nil_iff {text : List Char} : trim text = [] ↔ allBlank text = true := by
  rw [trim, trimEnd, List.reverse_eq_nil_iff, dropWhile_isBlank_eq_nil_iff, allBlank_reverse,
    allBlank_dropWhile]

section Around

variable {lead body trail : List Char} {d : Char}

/-- The blanks in front of a text are found as they are. -/
theorem takeWhile_isBlank (rest : List Char) (hlead : allBlank lead = true)
    (hd : isBlank d = false) : (lead ++ d :: rest).takeWhile isBlank = lead := by
  rw [List.takeWhile_append_of_pos (List.all_eq_true.mp hlead),
    List.takeWhile_cons_of_neg (by simp [hd]), List.append_nil]

theorem dropWhile_isBlank (rest : List Char) (hlead : allBlank lead = true)
    (hd : isBlank d = false) : (lead ++ d :: rest).dropWhile isBlank = d :: rest := by
  rw [List.dropWhile_append_of_pos (List.all_eq_true.mp hlead),
    List.dropWhile_cons_of_neg (by simp [hd])]

/-- Trimming takes away the blanks around a text, and nothing of the text. -/
theorem trim_append (hlead : allBlank lead = true) (htrail : allBlank trail = true)
    (hbody : ∀ c ∈ body, isBlank c = false) : trim (lead ++ body ++ trail) = body := by
  cases body with
  | nil =>
    rw [trim_eq_nil_iff, List.append_nil, allBlank, List.all_append, Bool.and_eq_true]
    exact ⟨hlead, htrail⟩
  | cons c rest =>
    have hfront : (lead ++ c :: rest ++ trail).dropWhile isBlank = c :: rest ++ trail := by
      rw [List.append_assoc, List.cons_append]
      exact dropWhile_isBlank _ hlead (hbody c List.mem_cons_self)
    -- The end of the text is the front of its reverse.
    obtain ⟨d, others, hreverse⟩ : ∃ d others, (c :: rest).reverse = d :: others :=
      List.exists_cons_of_ne_nil (by simp)
    have hd : isBlank d = false := hbody d (List.mem_reverse.mp (hreverse ▸ List.mem_cons_self))
    have htrail' : allBlank trail.reverse = true := (allBlank_reverse trail).trans htrail
    rw [trim, hfront, trimEnd, List.reverse_append, hreverse, dropWhile_isBlank _ htrail' hd,
      ← hreverse, List.reverse_reverse]

/-- What trimming takes away is blank. -/
theorem exists_trim (text : List Char) : ∃ lead trail,
    text = lead ++ trim text ++ trail ∧ allBlank lead = true ∧ allBlank trail = true := by
  generalize hfront : text.dropWhile isBlank = front
  refine ⟨text.takeWhile isBlank, (front.reverse.takeWhile isBlank).reverse, ?_,
    List.all_takeWhile, ?_⟩
  · have hback : trimEnd front ++ (front.reverse.takeWhile isBlank).reverse = front := by
      rw [trimEnd, ← List.reverse_append, List.takeWhile_append_dropWhile, List.reverse_reverse]
    rw [trim, hfront, List.append_assoc, hback, ← hfront, List.takeWhile_append_dropWhile]
  · rw [allBlank_reverse]
    exact List.all_takeWhile

end Around

end GoldenRun.Text
