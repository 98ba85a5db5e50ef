import GoldenRun.Proofs.Execution.Lifetime
import GoldenRun.Proofs.Expected
import GoldenRun.Proofs.Run.ConductSound
import GoldenRun.Proofs.Text.Decoding
import GoldenRun.Proofs.Text.Split
import Mathlib.Data.List.Basic

/-!
# Lines are matched as text

An expected-output file is bytes, and so is what a command writes; both are decoded before a line
is looked for.  That a line is found should mean that its bytes were written.

* `Expected.lines_decodeFrom`: the lines of the text are the lines of the bytes
* `Expected.infix_iff_forall_iff`: whatever is written, lines are found in the text exactly when
  their bytes were written, provided that no line has a U+FFFD; and for no other lines is it so
* `Expected.check_faithful_iff`: the same of a file and of a command that ends; if both are
  well-formed, it is so for any line
-/

namespace GoldenRun

open GoldenRun.Text

namespace Text

variable {bytes block : Bytes} {text : List Char} {mark : UInt8}

/-! ## Lines of bytes -/

/-- A line end comes from a byte of its own. -/
theorem newline_not_mem_decodeFrom (h : 0x0A ∉ bytes) : '\n' ∉ decodeFrom none bytes := by
  intro hmem
  obtain ⟨before, tail, htext⟩ := List.append_of_mem hmem
  obtain ⟨front, rest, rfl, hrest, -⟩ := decodeFrom_eq_append htext
  obtain ⟨piece, rest, -, rfl, -, hpiece⟩ := decodeFrom_eq_cons hrest
  have hnewline : piece = [0x0A] := hpiece.resolve_left (by decide)
  exact h (by simp [hnewline])

/-- The pieces between line ends can be decoded one by one. -/
theorem split_decodeFrom (bytes : Bytes) :
    split '\n' (decodeFrom none bytes) = (bytes.splitOn 0x0A).map (decodeFrom none) := by
  by_cases hmem : (0x0A : UInt8) ∈ bytes
  · obtain ⟨before, behind, hbytes, hbefore⟩ := List.eq_append_cons_of_mem hmem
    have hascii : decodeFrom none (0x0A :: behind) = '\n' :: decodeFrom none behind :=
      decodeFrom_ascii 0x0A (by decide) behind
    rw [hbytes, decodeFrom_append (by simp) (by simp [IsFresh]), hascii, split_append_cons,
      split_of_not_mem (newline_not_mem_decodeFrom hbefore), split_decodeFrom behind,
      List.splitOn_append_cons_self_of_not_mem hbefore]
    rfl
  · rw [split_of_not_mem (newline_not_mem_decodeFrom hmem), List.splitOn_eq_singleton hmem]
    rfl
termination_by bytes.length
decreasing_by simp [hbytes]; omega

/-! ## Other bytes with the same text -/

/-- The bytes of a text, with a mark for each U+FFFD. -/
def marked (mark : UInt8) (text : List Char) : Bytes :=
  text.flatMap fun c => if c = replacement then [mark] else String.utf8EncodeChar c

/-- A mark is a byte with which no character begins. -/
theorem lead_of_mark (hmark : 0xF5 ≤ mark.toNat) : lead mark = .stray := by
  unfold lead
  dsimp only
  rw [if_neg (by omega), if_neg (by omega), if_neg (by omega), if_neg (by omega),
    if_neg (by omega)]

theorem decodeFrom_marked (hmark : 0xF5 ≤ mark.toNat) (text : List Char) :
    decodeFrom none (marked mark text) = text := by
  induction text with
  | nil => rfl
  | cons c text ih =>
    rw [marked, List.flatMap_cons, ← marked]
    by_cases hc : c = replacement
    · rw [if_pos hc, List.singleton_append, decodeFrom, lead_of_mark hmark, ih, hc]
    · rw [if_neg hc, decodeFrom_utf8EncodeChar, ih]

/-- No byte of a character is a mark. -/
theorem lt_of_mem_utf8EncodeChar {b : UInt8} {c : Char} (h : b ∈ String.utf8EncodeChar c) :
    b.toNat < 0xF5 := by
  have hvalid : c.toNat < 0xD800 ∨ 0xDFFF < c.toNat ∧ c.toNat < 0x110000 := c.valid
  rw [utf8EncodeChar_eq] at h
  have hbyte : ∃ n < 0xF5, b = UInt8.ofNat n := by
    split at h
    · exact ⟨_, by omega, List.mem_singleton.mp h⟩
    split at h
    · simp only [List.mem_cons, List.not_mem_nil, or_false] at h
      rcases h with h | h <;> exact ⟨_, by omega, h⟩
    split at h
    · simp only [List.mem_cons, List.not_mem_nil, or_false] at h
      rcases h with h | h | h <;> exact ⟨_, by omega, h⟩
    · simp only [List.mem_cons, List.not_mem_nil, or_false] at h
      rcases h with h | h | h | h <;> exact ⟨_, by omega, h⟩
  obtain ⟨n, hn, rfl⟩ := hbyte
  rwa [toNat_ofNat (by omega)]

theorem eq_or_lt_of_mem_marked {b : UInt8} (h : b ∈ marked mark text) :
    b = mark ∨ b.toNat < 0xF5 := by
  obtain ⟨c, -, hc⟩ := List.mem_flatMap.mp h
  split at hc
  · exact .inl (List.mem_singleton.mp hc)
  · exact .inr (lt_of_mem_utf8EncodeChar hc)

theorem marked_of_not_mem (h : replacement ∉ text) :
    marked mark text = text.flatMap String.utf8EncodeChar :=
  List.flatMap_congr fun _ hc => if_neg (ne_of_mem_of_not_mem hc h)

/-- What stands between marks is bytes of a text without U+FFFD. -/
theorem exists_infix_of_infix_marked {text : List Char} (hmark : mark ∉ block)
    (h : block <:+: marked mark text) :
    ∃ part : List Char, replacement ∉ part ∧ block <:+: part.flatMap String.utf8EncodeChar := by
  by_cases hmem : replacement ∈ text
  · -- The text is cut at its first U+FFFD; what is behind is shorter.
    obtain ⟨front, behind, htext, hfront⟩ := List.eq_append_cons_of_mem hmem
    have hparted : marked mark text =
        front.flatMap String.utf8EncodeChar ++ mark :: marked mark behind := by
      rw [htext, ← marked_of_not_mem hfront, marked, List.flatMap_append, List.flatMap_cons,
        if_pos rfl]
      rfl
    rw [hparted] at h
    rcases infix_or_infix hmark h with h | h
    · exact ⟨front, hfront, h⟩
    · exact exists_infix_of_infix_marked hmark h
  · exact ⟨text, hmem, marked_of_not_mem hmem ▸ h⟩
termination_by text.length
decreasing_by simp [htext]; omega

/-- A text without U+FFFD whose bytes hold each of some blocks. -/
theorem exists_forall_infix {blocks : List Bytes}
    (h : ∀ block ∈ blocks, ∃ part : List Char, replacement ∉ part ∧
      block <:+: part.flatMap String.utf8EncodeChar) :
    ∃ text : List Char, replacement ∉ text ∧
      ∀ block ∈ blocks, block <:+: text.flatMap String.utf8EncodeChar := by
  induction blocks with
  | nil => exact ⟨[], by simp, by simp⟩
  | cons block blocks ih =>
    obtain ⟨part, hpart, hblock⟩ := h block List.mem_cons_self
    obtain ⟨text, htext, hblocks⟩ := ih fun b mem => h b (List.mem_cons_of_mem block mem)
    refine ⟨part ++ text, by simp [hpart, htext], fun b mem => ?_⟩
    rw [List.flatMap_append]
    rcases List.mem_cons.mp mem with rfl | mem
    · exact hblock.trans (List.prefix_append _ _).isInfix
    · exact (hblocks b mem).trans (List.suffix_append _ _).isInfix

/--
**Blocks of bytes are found as text in whatever bytes they stand, and in no others, exactly if none
of them has a U+FFFD.**

A U+FFFD in the text of a block stands for bytes that the text does not tell.  The same text comes
from two outputs that have no byte in common in its place; if the blocks stood in both, they would
stand in an output that has no U+FFFD at all.
-/
theorem infix_iff_forall_iff {blocks : List Bytes} :
    (∀ output, (∀ block ∈ blocks, decodeFrom none block <:+: decodeFrom none output) ↔
        ∀ block ∈ blocks, block <:+: output) ↔
      ∀ block ∈ blocks, replacement ∉ decodeFrom none block := by
  constructor
  · intro hfaithful
    -- All blocks are found in the text of all blocks, so they stand in its bytes with any mark.
    have hmarked (mark : UInt8) (hmark : 0xF5 ≤ mark.toNat) : ∀ block ∈ blocks,
        block <:+: marked mark (blocks.flatMap (decodeFrom none)) := by
      refine (hfaithful _).mp fun block mem => ?_
      rw [decodeFrom_marked hmark]
      exact List.infix_of_mem_flatten (List.mem_map_of_mem mem)
    have hpart : ∀ block ∈ blocks, ∃ part : List Char, replacement ∉ part ∧
        block <:+: part.flatMap String.utf8EncodeChar := by
      intro block mem
      -- A block that held one mark would not stand in the bytes with the other.
      refine exists_infix_of_infix_marked (fun hmem => ?_) (hmarked 0xFF (by decide) block mem)
      rcases eq_or_lt_of_mem_marked ((hmarked 0xFE (by decide) block mem).subset hmem) with h | h
      · exact absurd h (by decide)
      · exact absurd h (by decide)
    obtain ⟨text, htext, hblocks⟩ := exists_forall_infix hpart
    have hdecode := decodeFrom_flatMap text []
    simp only [List.append_nil, decodeFrom] at hdecode
    intro block mem hmem
    have hwithin := (hfaithful _).mpr hblocks block mem
    rw [hdecode] at hwithin
    exact htext (hwithin.subset hmem)
  · intro hblocks output
    exact ⟨fun h block mem => infix_of_not_mem (hblocks block mem) (h block mem),
      fun h block mem => infix_of_wellFormed (wellFormed_of_not_mem (hblocks block mem))
        (h block mem)⟩

end Text

namespace Expected

variable {w : Workspace} {path : String} {file : Bytes}

/-! ## The lines of a file -/

/-- The lines of a file as bytes, without the empty one behind a last line feed. -/
def byteLines (file : Bytes) : List Bytes :=
  let pieces := file.splitOn 0x0A
  if pieces.getLast? = some [] then pieces.dropLast else pieces

/-- The lines of a file that are not blank. -/
def contentLines (file : Bytes) : List Bytes :=
  (byteLines file).filter fun line => !allBlank (decodeFrom none line)

/-- The lines of the text are the lines of the bytes. -/
theorem lines_decodeFrom (file : Bytes) :
    lines (decodeFrom none file) = (byteLines file).map (decodeFrom none) := by
  have hlast : (List.map (decodeFrom none) (file.splitOn 0x0A)).getLast? = some [] ↔
      (file.splitOn 0x0A).getLast? = some [] := by
    rw [List.getLast?_map, Option.map_eq_some_iff]
    simp [decodeFrom_eq_nil_iff]
  unfold lines byteLines
  simp only [split_decodeFrom, hlast]
  split
  · rw [List.map_dropLast]
  · rfl

theorem map_text_filter_numberedLines (text : String) :
    (((numberedLines text).filter fun line => !isBlankLine line).map (·.text.toList)) =
      (lines text.toList).filter fun line => !allBlank line := by
  have hlines := List.zipIdx_map_fst 0 (lines text.toList)
  rw [numberedLines, List.filter_map, List.map_map]
  conv_rhs => rw [← hlines, List.filter_map]
  refine (congrArg _ (List.filter_congr ?_)).trans (List.map_congr_left ?_)
  · rintro ⟨line, i⟩ -
    simp [isBlankLine]
  · rintro ⟨line, i⟩ -
    simp

/-- What is looked for is the text of the lines that are not blank. -/
theorem exists_read_ignore (hread : w.disk.read w.cwd path = .ok file) :
    ∃ lines, Expected.read w .ignore path = .ok lines ∧
      lines.map (·.text.toList) = (contentLines file).map (decodeFrom none) := by
  have htext : w.disk.readText w.cwd path = .ok (decode file) := by
    rw [Disk.readText, hread]
    rfl
  refine ⟨_, read_ok htext (parse_ignore _), ?_⟩
  rw [map_text_filter_numberedLines, decode, String.toList_ofList, lines_decodeFrom,
    List.filter_map]
  rfl

/-- A line is missing unless the text of each line that is not blank stands in the output. -/
theorem firstMissing?_eq_none_iff_forall {lines : List ExpectedLine} {output : Bytes}
    (hlines : lines.map (·.text.toList) = (contentLines file).map (decodeFrom none)) :
    firstMissing? (decode output) lines = none ↔
      ∀ line ∈ contentLines file, decodeFrom none line <:+: decodeFrom none output := by
  have hmapped : (∀ text ∈ lines.map (·.text.toList), text <:+: decodeFrom none output) ↔
      ∀ line ∈ contentLines file, decodeFrom none line <:+: decodeFrom none output := by
    rw [hlines, List.forall_mem_map]
  rw [firstMissing?_eq_none_iff, decode, String.toList_ofList, ← hmapped, List.forall_mem_map]

/-! ## What a check means for the bytes -/

/-- A check is faithful to what a command writes before it ends: no line is missing exactly when
every line of the file that is not blank was written, byte for byte. -/
def IsFaithful (lines : List ExpectedLine) (file : Bytes) (request : Request)
    (pieces : List Bytes) (exitCode : Option Int) (signal : Option String) : Prop :=
  ∃ captured, settle request (pieces.map .wrote ++ [.closed exitCode signal]) = some captured ∧
    (firstMissing? captured.text lines = none ↔
      ∀ line ∈ contentLines file, line <:+: pieces.flatten)

theorem isFaithful_iff {lines : List ExpectedLine} {request : Request} {pieces : List Bytes}
    {exitCode : Option Int} {signal : Option String}
    (hlines : lines.map (·.text.toList) = (contentLines file).map (decodeFrom none)) :
    IsFaithful lines file request pieces exitCode signal ↔
      ((∀ line ∈ contentLines file, decodeFrom none line <:+: decodeFrom none pieces.flatten) ↔
        ∀ line ∈ contentLines file, line <:+: pieces.flatten) := by
  have hwrote : ∀ n ∈ pieces.map Notice.wrote, n.ends request = false := by
    rw [List.forall_mem_map]
    exact fun _ _ => rfl
  have hbytes : (pieces.map Notice.wrote).flatMap Notice.bytes = pieces.flatten := by
    rw [List.flatMap_map]
    exact List.flatMap_id
  have hends : (Notice.closed exitCode signal).ends request = true := rfl
  have hsettle := settle_eq_some hwrote hends []
  rw [hbytes] at hsettle
  rw [← firstMissing?_eq_none_iff_forall hlines, IsFaithful, hsettle]
  simp only [Option.some.injEq, exists_eq_left', Notice.outcome]

/--
**A check is faithful to bytes, whatever is written, exactly if no line of the file has a U+FFFD.**

If the file and the output are both well-formed it is faithful for any line.
-/
theorem check_faithful_iff (hread : w.disk.read w.cwd path = .ok file) (request : Request)
    (exitCode : Option Int) (signal : Option String) :
    ∃ lines, Expected.read w .ignore path = .ok lines ∧
      ((∀ pieces, IsFaithful lines file request pieces exitCode signal) ↔
        ∀ line ∈ contentLines file, replacement ∉ decodeFrom none line) ∧
      (∀ pieces, (∀ line ∈ contentLines file, WellFormed line) → WellFormed pieces.flatten →
        IsFaithful lines file request pieces exitCode signal) := by
  obtain ⟨lines, hlines, htexts⟩ := exists_read_ignore hread
  refine ⟨lines, hlines, ?_, fun pieces hfile houtput => ?_⟩
  · rw [← infix_iff_forall_iff]
    constructor
    · intro h output
      have hone := (isFaithful_iff htexts).mp (h [output])
      rwa [List.flatten_singleton] at hone
    · exact fun h pieces => (isFaithful_iff htexts).mpr (h pieces.flatten)
  · rw [isFaithful_iff htexts]
    exact ⟨fun h line mem => infix_of_wellFormed_output (hfile line mem) houtput (h line mem),
      fun h line mem => infix_of_wellFormed (hfile line mem) (h line mem)⟩

/-- A workspace with nothing but an expected-output file. -/
def singleFile (file : Bytes) : Workspace where
  disk := ⟨[(["a.run"], .file file false)]⟩
  cwd := []
  env := []

/-- A line with a character of two bytes, and an empty line. -/
theorem check_faithful_iff_singleFile :
    (singleFile [0xC3, 0xA9, 0x0A, 0x0A]).disk.read [] "a.run" = .ok [0xC3, 0xA9, 0x0A, 0x0A] ∧
      ∃ lines, Expected.read (singleFile [0xC3, 0xA9, 0x0A, 0x0A]) .ignore "a.run" = .ok lines ∧
        IsFaithful lines [0xC3, 0xA9, 0x0A, 0x0A] limitedRequest [[0xC3], [0xA9]] (some 0) none ∧
        IsFaithful lines [0xC3, 0xA9, 0x0A, 0x0A] limitedRequest [[0xA9]] (some 0) none := by
  have hread : (singleFile [0xC3, 0xA9, 0x0A, 0x0A]).disk.read [] "a.run" =
      .ok [0xC3, 0xA9, 0x0A, 0x0A] := by decide +kernel
  obtain ⟨lines, hlines, hfaithful, -⟩ := check_faithful_iff hread limitedRequest (some 0) none
  have hall := hfaithful.mpr (by decide +kernel)
  exact ⟨hread, lines, hlines, hall _, hall _⟩

/-- A line is found that was not written, and a line that was written is not found. -/
theorem check_unfaithful_singleFile :
    (∃ lines captured, Expected.read (singleFile [0xFF]) .ignore "a.run" = .ok lines ∧
      settle limitedRequest [.wrote [0xFE], .closed (some 0) none] = some captured ∧
      firstMissing? captured.text lines = none ∧
      ¬ ∀ line ∈ contentLines [0xFF], line <:+: [0xFE]) ∧
    ∃ lines captured, Expected.read (singleFile [0x82]) .ignore "a.run" = .ok lines ∧
      settle limitedRequest [.wrote [0xE2, 0x82, 0xAC], .closed (some 0) none] = some captured ∧
      firstMissing? captured.text lines ≠ none ∧
      ∀ line ∈ contentLines [0x82], line <:+: [0xE2, 0x82, 0xAC] := by
  refine ⟨⟨[⟨"\uFFFD", 1⟩], { text := "\uFFFD", exitCode := some 0 }, ?_, ?_, ?_, ?_⟩,
    [⟨"\uFFFD", 1⟩], { text := "€", exitCode := some 0 }, ?_, ?_, ?_, ?_⟩
  all_goals decide +kernel

end Expected

end GoldenRun
