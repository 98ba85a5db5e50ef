import GoldenRun.Proofs.Expected
import GoldenRun.Proofs.Text.Line

/-!
# Which line is missing

The verdict on an output, told without the reading of the expected output: it depends on the lines
of the two texts alone.

* `mem_asked_iff`: the lines to be found are those of the text that are not blank
* `firstMissing?_eq_some_iff_of_pairwise`: of lines in order, the one that is missing has the least
  number
* `verdict_on_lines`: an output is accepted exactly if every line that is not blank stands in one of
  its lines, and otherwise the first that does not is named
-/

namespace GoldenRun.Expected

open GoldenRun.Text

variable {text captured : String} {line missing : ExpectedLine} {lines' : List ExpectedLine}
  {i : Nat}

/-- An expected-output text asks for a line: it has the line under this number, and some character
of the line is not blank. -/
structure Asks (text : String) (line : ExpectedLine) : Prop where
  /-- It is the line with its number. -/
  isLine : IsLine text.toList line.text.toList line.lineNumber
  /-- It has content. -/
  content : ∃ c ∈ line.text.toList, isBlank c = false

theorem allBlank_eq_false_iff {text : List Char} :
    allBlank text = false ↔ ∃ c ∈ text, isBlank c = false :=
  List.all_eq_false.trans (by simp only [Bool.not_eq_true])

/-- Up to the empty piece behind a last line feed, the lines are the pieces. -/
theorem getElem?_lines {text line : List Char} (hline : line ≠ []) :
    (lines text)[i]? = some line ↔ (split '\n' text)[i]? = some line := by
  unfold lines
  dsimp only
  split
  · next hlast =>
    obtain ⟨front, hfront⟩ := List.getLast?_eq_some_iff.mp hlast
    rw [hfront, List.dropLast_concat]
    rcases Nat.lt_trichotomy i front.length with hi | hi | hi
    · rw [List.getElem?_append_left hi]
    · simp [hi, hline.symm]
    · have hnone : front.length + 1 ≤ i := hi
      rw [List.getElem?_eq_none (by omega), List.getElem?_eq_none (by simpa using hnone)]
  · rfl

theorem mem_numberedLines :
    line ∈ numberedLines text ↔
      ∃ i, (lines text.toList)[i]? = some line.text.toList ∧ line.lineNumber = i + 1 := by
  unfold numberedLines
  rw [List.mem_map]
  constructor
  · rintro ⟨⟨piece, i⟩, hmem, rfl⟩
    rw [List.mem_zipIdx_iff_getElem?] at hmem
    exact ⟨i, by rwa [String.toList_ofList], rfl⟩
  · rintro ⟨i, hpiece, hnumber⟩
    refine ⟨(line.text.toList, i), List.mem_zipIdx_iff_getElem?.mpr hpiece, ?_⟩
    show (⟨String.ofList line.text.toList, i + 1⟩ : ExpectedLine) = line
    rw [String.ofList_toList, ← hnumber]

/-- The numbers of the lines grow. -/
theorem pairwise_numberedLines (text : String) :
    (numberedLines text).Pairwise fun line line' => line.lineNumber < line'.lineNumber := by
  unfold numberedLines
  have hplaces : ((lines text.toList).zipIdx.map (·.2)).Pairwise (· < ·) := by
    rw [List.zipIdx_map_snd]
    exact List.pairwise_lt_range'
  rw [List.pairwise_map] at hplaces ⊢
  exact hplaces.imp fun h => Nat.succ_lt_succ h

/-- The lines to be found are those of the text that are not blank. -/
theorem mem_asked_iff :
    line ∈ (numberedLines text).filter (fun line => !isBlankLine line) ↔ Asks text line := by
  rw [List.mem_filter, mem_numberedLines, Bool.not_eq_true', isBlankLine, allBlank_eq_false_iff]
  have hpiece : (∃ c ∈ line.text.toList, isBlank c = false) → ∀ i,
      ((lines text.toList)[i]? = some line.text.toList ↔
        IsLine text.toList line.text.toList (i + 1)) := by
    rintro ⟨c, hc, -⟩ i
    rw [isLine_iff_getElem?, getElem?_lines (List.ne_nil_of_mem hc)]
  constructor
  · rintro ⟨⟨i, hline, hnumber⟩, hcontent⟩
    exact ⟨hnumber ▸ (hpiece hcontent i).mp hline, hcontent⟩
  · rintro ⟨hline, hcontent⟩
    obtain ⟨before, -, -, -, -, -, hnumber⟩ := id hline
    rw [hnumber] at hline
    exact ⟨⟨_, (hpiece hcontent _).mpr hline, hnumber⟩, hcontent⟩

/-- Of lines in order, the one that is missing has the least number of all that are not found. -/
theorem firstMissing?_eq_some_iff_of_pairwise
    (h : lines'.Pairwise fun line line' => line.lineNumber < line'.lineNumber) :
    firstMissing? captured lines' = some missing ↔
      missing ∈ lines' ∧ ¬ missing.text.toList <:+: captured.toList ∧
        ∀ line ∈ lines', line.lineNumber < missing.lineNumber →
          line.text.toList <:+: captured.toList := by
  rw [firstMissing?_eq_some_iff]
  constructor
  · rintro ⟨before, after, rfl, hbefore, hmissing⟩
    refine ⟨by simp, hmissing, fun line hline hless => ?_⟩
    rcases List.mem_append.mp hline with hline | hline
    · exact hbefore line hline
    · -- What comes behind the missing line has a greater number.
      have hgreater : missing.lineNumber ≤ line.lineNumber := by
        rcases List.mem_cons.mp hline with rfl | hline
        · exact Nat.le_refl _
        · have hafter := (List.pairwise_append.mp h).2.1
          exact Nat.le_of_lt ((List.pairwise_cons.mp hafter).1 line hline)
      exact absurd hless (Nat.not_lt.mpr hgreater)
  · rintro ⟨hmem, hmissing, hless⟩
    obtain ⟨before, after, rfl⟩ := List.append_of_mem hmem
    refine ⟨before, after, rfl, fun line hline => ?_, hmissing⟩
    have hbefore := (List.pairwise_append.mp h).2.2 line hline missing List.mem_cons_self
    exact hless line (List.mem_append_left _ hline) hbefore

/-- A line that is asked for is found as a block of the output if it stands in one of its lines. -/
theorem Asks.infix_iff (h : Asks text line) :
    line.text.toList <:+: captured.toList ↔ StandsIn line.text.toList captured.toList := by
  obtain ⟨before, after, -, hline, -⟩ := h.isLine
  exact infix_iff_standsIn hline

/--
**The verdict on an output rests on the lines of the two texts.**

When blank lines are passed over, every expected-output text can be read.  The output lacks nothing
exactly if each line that the text asks for stands, unchanged and as a whole, in one line of the
output; and the line that is named as missing is, of all that do not, the one with the least number,
blank lines being counted.  A line of nothing but blank characters, be they a carriage return, a
no-break space, a byte order mark or one of the two line ends of Unicode, is never asked for.
-/
theorem verdict_on_lines (captured text : String) :
    ∃ lines', parse .ignore text = .ok lines' ∧
      (firstMissing? captured lines' = none ↔
        ∀ line, Asks text line → StandsIn line.text.toList captured.toList) ∧
      (∀ missing, firstMissing? captured lines' = some missing ↔
        Asks text missing ∧ ¬ StandsIn missing.text.toList captured.toList ∧
          ∀ line, Asks text line → line.lineNumber < missing.lineNumber →
            StandsIn line.text.toList captured.toList) ∧
      ∀ line, (∀ c ∈ line.text.toList,
          c ∈ [' ', '\t', '\r', '\u00A0', '\uFEFF', '\u2028', '\u2029']) → ¬ Asks text line := by
  refine ⟨_, parse_ignore text, ?_, fun missing => ?_, fun line hblank hasked => ?_⟩
  · rw [firstMissing?_eq_none_iff]
    simp only [mem_asked_iff]
    exact forall₂_congr fun line hasked => hasked.infix_iff
  · rw [firstMissing?_eq_some_iff_of_pairwise ((pairwise_numberedLines text).filter _)]
    simp only [mem_asked_iff]
    constructor
    · rintro ⟨hasked, hmissing, hless⟩
      exact ⟨hasked, fun hstands => hmissing (hasked.infix_iff.mpr hstands),
        fun line hline hlt => hline.infix_iff.mp (hless line hline hlt)⟩
    · rintro ⟨hasked, hmissing, hless⟩
      exact ⟨hasked, fun hinfix => hmissing (hasked.infix_iff.mp hinfix),
        fun line hline hlt => hline.infix_iff.mpr (hless line hline hlt)⟩
  · obtain ⟨c, hc, hcontent⟩ := hasked.content
    have hall : [' ', '\t', '\r', '\u00A0', '\uFEFF', '\u2028', '\u2029'].all isBlank = true := by
      decide
    rw [List.all_eq_true.mp hall c (hblank c hc)] at hcontent
    cases hcontent

end GoldenRun.Expected
