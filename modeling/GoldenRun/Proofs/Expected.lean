import GoldenRun.Expected

/-!
# Expected lines

* `firstMissing?_eq_none_iff`, `firstMissing?_eq_some_iff`: an output lacks no line when each is a
  contiguous block of it; the line that is missing is the first that is not
* `parse_eq_error_iff`: a text is refused for the first of its blank lines, counted from 1, and only
  under the policy `reject`
-/

namespace GoldenRun.Expected

open GoldenRun.Text

/-! ## Missing lines -/

/-- A block stands in a text exactly when it is an infix of it. -/
theorem occursIn_iff_infix {needle text : List Char} :
    occursIn needle text = true ↔ needle <:+: text := by
  rw [occursIn_iff]
  constructor
  · rintro ⟨before, after, h⟩
    exact ⟨before, after, h.symm⟩
  · rintro ⟨before, after, h⟩
    exact ⟨before, after, h.symm⟩

theorem firstMissing?_eq_none_iff {captured : String} {lines : List ExpectedLine} :
    firstMissing? captured lines = none ↔
      ∀ line ∈ lines, line.text.toList <:+: captured.toList := by
  unfold firstMissing?
  rw [List.find?_eq_none]
  simp only [Bool.not_eq_true', Bool.not_eq_false, occursIn_iff_infix]

theorem firstMissing?_eq_some_iff {captured : String} {lines : List ExpectedLine}
    {missing : ExpectedLine} :
    firstMissing? captured lines = some missing ↔
      ∃ before after, lines = before ++ missing :: after ∧
        (∀ line ∈ before, line.text.toList <:+: captured.toList) ∧
        ¬ missing.text.toList <:+: captured.toList := by
  unfold firstMissing?
  rw [List.find?_eq_some_iff_append]
  simp only [Bool.not_eq_true', Bool.not_not, ← Bool.not_eq_true, occursIn_iff_infix]
  constructor
  · rintro ⟨hmissing, before, after, hsplit, hbefore⟩
    exact ⟨before, after, hsplit, hbefore, hmissing⟩
  · rintro ⟨before, after, hsplit, hbefore, hmissing⟩
    exact ⟨hmissing, before, after, hsplit, hbefore⟩

/-! ## Blank lines -/

/-- Under the policy `ignore` the blank lines are left out. -/
theorem parse_ignore (text : String) :
    parse .ignore text = .ok ((numberedLines text).filter fun line => !isBlankLine line) := by
  unfold parse
  cases (numberedLines text).find? isBlankLine <;> rfl

/-- Lines with their numbers, the first of which is given. -/
def numberedFrom (n : Nat) (lines : List (List Char)) : List ExpectedLine :=
  (lines.zipIdx n).map fun (line, i) => ⟨String.ofList line, i + 1⟩

theorem numberedFrom_cons (n : Nat) (line : List Char) (lines : List (List Char)) :
    numberedFrom n (line :: lines) =
      ⟨String.ofList line, n + 1⟩ :: numberedFrom (n + 1) lines := by
  simp [numberedFrom]

/-- The first blank line among numbered lines is the first blank one of the lines, with its
number. -/
theorem find?_numberedFrom_eq_some_iff {lines : List (List Char)} {n : Nat} {x : ExpectedLine} :
    (numberedFrom n lines).find? isBlankLine = some x ↔
      ∃ before line after, lines = before ++ line :: after ∧
        (∀ l ∈ before, allBlank l = false) ∧ allBlank line = true ∧
        x = ⟨String.ofList line, n + before.length + 1⟩ := by
  induction lines generalizing n with
  | nil => simp [numberedFrom]
  | cons line lines ih =>
    rw [numberedFrom_cons]
    cases hblank : allBlank line with
    | true =>
      have hline : isBlankLine ⟨String.ofList line, n + 1⟩ = true := by
        simpa [isBlankLine] using hblank
      rw [List.find?_cons_of_pos hline]
      constructor
      · intro h
        exact ⟨[], line, lines, rfl, by simp, hblank, by simpa using h.symm⟩
      · rintro ⟨before, line', after, hsplit, hbefore, hline', rfl⟩
        cases before with
        | nil => simp_all
        | cons first before =>
          obtain ⟨rfl, -⟩ := List.cons_eq_cons.mp hsplit
          simp [hblank] at hbefore
    | false =>
      have hline : ¬ isBlankLine ⟨String.ofList line, n + 1⟩ = true := by
        simpa [isBlankLine] using hblank
      rw [List.find?_cons_of_neg hline, ih]
      constructor
      · rintro ⟨before, line', after, rfl, hbefore, hline', rfl⟩
        refine ⟨line :: before, line', after, rfl, ?_, hline', ?_⟩
        · simpa [hblank] using hbefore
        · simp only [List.length_cons]
          congr 1
          omega
      · rintro ⟨before, line', after, hsplit, hbefore, hline', rfl⟩
        cases before with
        | nil =>
          obtain ⟨rfl, -⟩ := List.cons_eq_cons.mp hsplit
          rw [hblank] at hline'
          cases hline'
        | cons first before =>
          obtain ⟨rfl, rfl⟩ := List.cons_eq_cons.mp hsplit
          refine ⟨before, line', after, rfl, fun l hl => hbefore l (by simp [hl]), hline', ?_⟩
          simp only [List.length_cons]
          congr 1
          omega

/-- A text is refused for its first blank line, and only under the policy `reject`. -/
theorem parse_eq_error_iff {policy : BlankPolicy} {text : String} {n : Nat} :
    parse policy text = .error n ↔
      policy = .reject ∧ ∃ before line after, lines text.toList = before ++ line :: after ∧
        (∀ l ∈ before, allBlank l = false) ∧ allBlank line = true ∧ n = before.length + 1 := by
  have hnumbered : numberedLines text = numberedFrom 0 (lines text.toList) := rfl
  unfold parse
  simp only [hnumbered]
  cases policy with
  | ignore => simp
  | reject =>
    cases hfind : (numberedFrom 0 (lines text.toList)).find? isBlankLine with
    | none =>
      refine ⟨fun h => by simp at h, ?_⟩
      rintro ⟨-, before, line, after, hsplit, hbefore, hline, rfl⟩
      have hsome := (find?_numberedFrom_eq_some_iff (n := 0)).mpr
        ⟨before, line, after, hsplit, hbefore, hline, rfl⟩
      rw [hfind] at hsome
      cases hsome
    | some x =>
      obtain ⟨before, line, after, hsplit, hbefore, hline, rfl⟩ :=
        find?_numberedFrom_eq_some_iff.mp hfind
      simp only [Except.error.injEq, true_and]
      constructor
      · rintro rfl
        exact ⟨before, line, after, hsplit, hbefore, hline, by simp⟩
      · rintro ⟨before', line', after', hsplit', hbefore', hline', rfl⟩
        have hsome := (find?_numberedFrom_eq_some_iff (n := 0)).mpr
          ⟨before', line', after', hsplit', hbefore', hline', rfl⟩
        rw [hfind] at hsome
        have := congrArg ExpectedLine.lineNumber (Option.some.inj hsome)
        simpa using this

end GoldenRun.Expected
