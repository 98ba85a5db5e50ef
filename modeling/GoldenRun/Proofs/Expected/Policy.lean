import GoldenRun.Proofs.Expected.Missing
import GoldenRun.Proofs.Run.ConductSound

/-!
# What a blank line does

The two policies see the same lines and the same numbers; they differ in what a blank line does.

* `isBlank_iff_mem_blanks`: the blank characters, one by one
* `mem_numberedLines_iff`: the lines of a text, told by what is before and behind them
* `join_lines`: the lines, joined again, are the text up to a last line feed
* `policies_agree`: what each policy makes of a text
-/

namespace GoldenRun.Expected

open GoldenRun.Text

variable {text : String} {line : ExpectedLine} {kept : List ExpectedLine} {n i : Nat}

/-! ## Blank lines -/

/-- The characters that trimming takes away: blanks and line ends of ASCII, the space separators and
line ends of Unicode, and the byte order mark. -/
def blanks : List Char :=
  ['\t', '\n', '\x0b', '\x0c', '\r', ' ', '\u00a0', '\u1680', '\u2000', '\u2001', '\u2002',
    '\u2003', '\u2004', '\u2005', '\u2006', '\u2007', '\u2008', '\u2009', '\u200a', '\u2028',
    '\u2029', '\u202f', '\u205f', '\u3000', '\ufeff']

theorem isBlank_iff_mem_blanks {c : Char} : isBlank c = true ↔ c ∈ blanks := by
  have hchar : ∀ d : Char, c = d ↔ c.toNat = d.toNat := fun d => Char.toNat_inj.symm
  simp [isBlank, blanks, hchar]
  omega

/-- A line is empty or holds nothing but what trimming takes away. -/
def IsBlank (line : ExpectedLine) : Prop := ∀ c ∈ line.text.toList, c ∈ blanks

theorem isBlankLine_iff : isBlankLine line = true ↔ IsBlank line := by
  simp [isBlankLine, allBlank, IsBlank, isBlank_iff_mem_blanks]

/-! ## The lines of a text -/

/-- A text has a line under a number.  What is behind the last line feed is a line if it is not
empty. -/
structure HasLine (text : String) (line : ExpectedLine) : Prop where
  /-- It stands there, with as many line feeds before it as lines. -/
  isLine : IsLine text.toList line.text.toList line.lineNumber
  /-- Some character is in it, or a line feed is behind it. -/
  ends : line.text ≠ "" ∨ line.lineNumber ≤ text.toList.count '\n'

theorem getElem?_lines_iff {text piece : List Char} :
    (lines text)[i]? = some piece ↔
      (split '\n' text)[i]? = some piece ∧ (piece ≠ [] ∨ i < text.count '\n') := by
  have hlength := length_split '\n' text
  by_cases hpiece : piece = []
  · subst hpiece
    simp only [ne_eq, not_true_eq_false, false_or]
    unfold lines
    dsimp only
    split
    · next hlast =>
      -- The last piece is empty and left out; all pieces before it have a line feed behind them.
      rw [List.getElem?_dropLast, hlength, Nat.add_sub_cancel]
      split
      · next hi => simp [hi]
      · next hi => simp [hi]
    · next hlast =>
      refine ⟨fun h => ⟨h, ?_⟩, And.left⟩
      obtain ⟨hi, -⟩ := List.getElem?_eq_some_iff.mp h
      rw [List.getLast?_eq_getElem?, hlength, Nat.add_sub_cancel] at hlast
      have hne : i ≠ text.count '\n' := fun heq => hlast (heq ▸ h)
      omega
  · rw [getElem?_lines hpiece]
    simp [hpiece]

/-- The lines of a text, told by what is before and behind them. -/
theorem mem_numberedLines_iff : line ∈ numberedLines text ↔ HasLine text line := by
  have hempty : line.text ≠ "" ↔ line.text.toList ≠ [] := by simp
  rw [mem_numberedLines]
  constructor
  · rintro ⟨i, hline, hnumber⟩
    obtain ⟨hpiece, hends⟩ := getElem?_lines_iff.mp hline
    refine ⟨hnumber ▸ isLine_iff_getElem?.mpr hpiece, hends.imp hempty.mpr fun hi => ?_⟩
    omega
  · rintro ⟨hline, hends⟩
    obtain ⟨before, -, -, -, -, -, hnumber⟩ := id hline
    rw [hnumber] at hline hends
    refine ⟨_, getElem?_lines_iff.mpr ⟨isLine_iff_getElem?.mp hline, ?_⟩, hnumber⟩
    exact hends.imp hempty.mp id

theorem map_text_numberedLines (text : String) :
    (numberedLines text).map (·.text) = (lines text.toList).map String.ofList := by
  have hfst := congrArg (List.map String.ofList) (List.zipIdx_map_fst 0 (lines text.toList))
  rw [List.map_map] at hfst
  unfold numberedLines
  rw [List.map_map]
  exact hfst

/-- The lines, joined again, are the text up to a last line feed. -/
theorem join_lines (text : List Char) :
    text = join '\n' (lines text) ∨ text = join '\n' (lines text) ++ ['\n'] := by
  unfold lines
  dsimp only
  split
  · next hlast =>
    obtain ⟨front, hfront⟩ := List.getLast?_eq_some_iff.mp hlast
    have hjoin := join_split '\n' text
    rw [hfront] at hjoin ⊢
    rw [List.dropLast_concat]
    by_cases hne : front = []
    · subst hne
      exact .inl hjoin.symm
    · rw [join_append hne] at hjoin
      exact .inr hjoin.symm
  · exact .inl (join_split '\n' text).symm

/-! ## The two policies -/

/-- A file is read as its text is parsed; a blank line that is refused is reported with the file. -/
theorem read_of_readText {w : Workspace} {path : String} (policy : BlankPolicy)
    (h : w.disk.readText w.cwd path = .ok text) :
    Expected.read w policy path = (parse policy text).mapError fun n =>
      .defect (.invalidFixture path n blankLineReason) := by
  cases hparse : parse policy text with
  | ok lines => exact read_ok h hparse
  | error n => exact read_refused h hparse

/-- The first blank line has the least number, and the numbers grow. -/
theorem find?_blank_eq_some_iff :
    (numberedLines text).find? isBlankLine = some line ↔
      HasLine text line ∧ IsBlank line ∧
        ∀ line', HasLine text line' → IsBlank line' → line.lineNumber ≤ line'.lineNumber := by
  have hgrows := pairwise_numberedLines text
  simp only [← mem_numberedLines_iff, ← isBlankLine_iff]
  rw [List.find?_eq_some_iff_append]
  constructor
  · rintro ⟨hblank, before, after, hsplit, hbefore⟩
    refine ⟨by simp [hsplit], hblank, fun line' hline' hblank' => ?_⟩
    rw [hsplit] at hline' hgrows
    rcases List.mem_append.mp hline' with hmem | hmem
    · have := hbefore line' hmem
      simp [hblank'] at this
    · rcases List.mem_cons.mp hmem with rfl | hmem
      · exact Nat.le_refl _
      · have hafter := (List.pairwise_append.mp hgrows).2.1
        exact Nat.le_of_lt ((List.pairwise_cons.mp hafter).1 line' hmem)
  · rintro ⟨hmem, hblank, hleast⟩
    obtain ⟨before, after, hsplit⟩ := List.append_of_mem hmem
    refine ⟨hblank, before, after, hsplit, fun line' hline' => ?_⟩
    -- A blank line before this one would have a smaller number.
    rw [hsplit] at hgrows
    have hless := (List.pairwise_append.mp hgrows).2.2 line' hline' line List.mem_cons_self
    cases hblank' : isBlankLine line' with
    | false => rfl
    | true =>
      have := hleast line' (hsplit ▸ List.mem_append_left _ hline') hblank'
      omega

/-- Under the policy `reject` the first blank line decides; without one all is as under `ignore`. -/
theorem parse_reject (text : String) :
    parse .reject text =
      match (numberedLines text).find? isBlankLine with
      | some line => .error line.lineNumber
      | none => parse .ignore text := by
  rw [parse_ignore]
  unfold parse
  cases hfirst : (numberedLines text).find? isBlankLine <;> simp [hfirst]

/-- The number with which a text is refused is the least that a blank line has. -/
theorem parse_reject_eq_error_iff :
    parse .reject text = .error n ↔
      (∃ line, HasLine text line ∧ IsBlank line ∧ line.lineNumber = n) ∧
        ∀ line, HasLine text line → IsBlank line → n ≤ line.lineNumber := by
  have hparse : parse .reject text = .error n ↔
      ∃ line, (numberedLines text).find? isBlankLine = some line ∧ line.lineNumber = n := by
    rw [parse_reject, parse_ignore]
    cases (numberedLines text).find? isBlankLine <;> simp
  rw [hparse]
  simp only [find?_blank_eq_some_iff]
  constructor
  · rintro ⟨line, ⟨hline, hblank, hleast⟩, rfl⟩
    exact ⟨⟨line, hline, hblank, rfl⟩, hleast⟩
  · rintro ⟨⟨line, hline, hblank, rfl⟩, hleast⟩
    exact ⟨line, ⟨hline, hblank, hleast⟩, rfl⟩

/-- A text in which no line is blank keeps all its lines. -/
theorem filter_numberedLines (h : ∀ line, HasLine text line → ¬ IsBlank line) :
    (numberedLines text).filter (fun line => !isBlankLine line) = numberedLines text := by
  rw [List.filter_eq_self]
  intro line hline
  have hblank := h line (mem_numberedLines_iff.mp hline)
  rw [← isBlankLine_iff] at hblank
  simpa using hblank

theorem parse_reject_of_no_blank (h : ∀ line, HasLine text line → ¬ IsBlank line) :
    parse .reject text = parse .ignore text := by
  have hnone : (numberedLines text).find? isBlankLine = none := by
    rw [List.find?_eq_none]
    intro line hline hblank
    exact h line (mem_numberedLines_iff.mp hline) (isBlankLine_iff.mp hblank)
  rw [parse_reject, hnone]

/-- Strings joined by line feeds are the characters joined by them. -/
theorem joinStrings_text (lines' : List ExpectedLine) :
    (joinStrings "\n" (lines'.map (·.text))).toList =
      join '\n' (lines'.map (·.text.toList)) := by
  have hsep : "\n".toList = ['\n'] := by rfl
  rw [toList_joinStrings hsep, List.map_map]
  rfl

/--
**The two policies agree on the lines of a text.**

When blank lines are passed over, the lines that are not blank are kept, each unchanged and under
the number that it has in the text.  When they are refused, the text is refused exactly if it has a
blank line, for the least number that one has, and otherwise the same lines are kept.  So a text
without blank lines is, up to a line feed at its end, what its kept lines make when they are joined.
-/
theorem policies_agree (text : String) :
    ∃ kept, parse .ignore text = .ok kept ∧
      (kept.Pairwise fun line line' => line.lineNumber < line'.lineNumber) ∧
      (∀ line, line ∈ kept ↔ HasLine text line ∧ ¬ IsBlank line) ∧
      (∀ n, parse .reject text = .error n ↔
        (∃ line, HasLine text line ∧ IsBlank line ∧ line.lineNumber = n) ∧
          ∀ line, HasLine text line → IsBlank line → n ≤ line.lineNumber) ∧
      (parse .reject text = .ok kept ↔ ∀ line, HasLine text line → ¬ IsBlank line) ∧
      ((∀ line, HasLine text line → ¬ IsBlank line) →
        text = joinStrings "\n" (kept.map (·.text)) ∨
          text = joinStrings "\n" (kept.map (·.text)) ++ "\n") ∧
      ∀ (policy : BlankPolicy) (w : Workspace) (path : String),
        w.disk.readText w.cwd path = .ok text →
          Expected.read w policy path = (parse policy text).mapError fun n =>
            .defect (.invalidFixture path n blankLineReason) := by
  refine ⟨_, parse_ignore text, (pairwise_numberedLines text).filter _, fun line => ?_,
    fun n => parse_reject_eq_error_iff, ⟨fun hkept line hline hblank => ?_, fun hnone => ?_⟩,
    fun hnone => ?_, fun policy w path => read_of_readText policy⟩
  · rw [List.mem_filter, mem_numberedLines_iff, ← isBlankLine_iff]
    simp
  · -- A text that has a blank line is refused, for the first of them.
    cases hfirst : (numberedLines text).find? isBlankLine with
    | none =>
      rw [List.find?_eq_none] at hfirst
      exact hfirst line (mem_numberedLines_iff.mpr hline) (isBlankLine_iff.mpr hblank)
    | some first =>
      obtain ⟨hfirst, hblank, hleast⟩ := find?_blank_eq_some_iff.mp hfirst
      have herror := parse_reject_eq_error_iff.mpr ⟨⟨first, hfirst, hblank, rfl⟩, hleast⟩
      rw [hkept] at herror
      cases herror
  · rw [parse_reject_of_no_blank hnone, parse_ignore]
  · rw [filter_numberedLines hnone, ← String.toList_inj, ← String.toList_inj, String.toList_append,
      joinStrings_text]
    have htexts := congrArg (List.map String.toList) (map_text_numberedLines text)
    simp only [List.map_map, Function.comp_def, String.toList_ofList, List.map_id'] at htexts
    rw [htexts]
    exact join_lines text.toList

end GoldenRun.Expected
