import GoldenRun.Shell.Word
import Mathlib.Data.List.Forall2

/-!
# Command lines that are echoed

A command line is read back word by word, and a shell finds nothing else in it.

* `splitFrom_quoteWord`: the reader of words goes over a word as it is written, and has read the
  word
* `splitWords_wordsLine`: words that are written in one line are read back
* `bare_quoteWord`: of a word that is written, only plain characters stand bare
* `commandLine_faithful`: all this of a command with its arguments, and that no other has its line
-/

namespace GoldenRun.Shell

open GoldenRun.Text

variable {c : Char} {word rest done : List Char} {words : List (List Char)}

/-! ## Plain characters -/

/-- Whether a character can mean something to a shell where it stands bare: it parts words, quotes,
begins an expansion, an operator or a comment, or belongs to a pattern of file names.  Whatever is
no graphic character of ASCII is counted in, as it may part words somewhere. -/
def isSpecial (c : Char) : Bool :=
  c.toNat ≤ 0x20 || 0x7F ≤ c.toNat || "'\"\\$`~*?[]\x7b\x7d!^#|&;<>()".toList.contains c

/-- Every plain character is one of ASCII. -/
theorem toNat_of_isPlain (h : isPlain c = true) : c.toNat < 0x80 := by
  rw [isPlain, Bool.or_eq_true] at h
  rcases h with hletter | hsign
  · have hranges : (decide (c.val ≥ 'A'.val ∧ c.val ≤ 'Z'.val) ||
        (decide (c.val ≥ 'a'.val) && decide (c.val ≤ 'z'.val)) ||
        (decide (c.val ≥ '0'.val) && decide (c.val ≤ '9'.val))) = true := hletter
    simp only [Bool.or_eq_true, Bool.and_eq_true, decide_eq_true_eq] at hranges
    rcases hranges with (⟨-, hlast⟩ | ⟨-, hlast⟩) | ⟨-, hlast⟩
    · exact Nat.lt_of_le_of_lt hlast (by decide)
    · exact Nat.lt_of_le_of_lt hlast (by decide)
    · exact Nat.lt_of_le_of_lt hlast (by decide)
  · have hall : "_@%+=:,./-".toList.all (fun sign => sign.toNat < 0x80) = true := by decide
    exact of_decide_eq_true (List.all_eq_true.mp hall c (List.contains_iff_mem.mp hsign))

theorem isSpecial_of_isPlain (h : isPlain c = true) : isSpecial c = false := by
  have hall : ∀ n ∈ List.range 0x80, isPlain (Char.ofNat n) = true →
      isSpecial (Char.ofNat n) = false := by decide +kernel
  have hc := hall c.toNat (List.mem_range.mpr (toNat_of_isPlain h))
  rw [Char.ofNat_toNat] at hc
  exact hc h

theorem ne_of_isPlain (h : isPlain c = true) {d : Char} (hd : isSpecial d = true) : c ≠ d := by
  rintro rfl
  rw [isSpecial_of_isPlain h] at hd
  cases hd

theorem separatesWords_of_isPlain (h : isPlain c = true) : separatesWords c = false := by
  simp only [separatesWords, Bool.or_eq_false_iff, decide_eq_false_iff_not]
  exact ⟨⟨ne_of_isPlain h (by decide), ne_of_isPlain h (by decide)⟩, ne_of_isPlain h (by decide)⟩

/-! ## Reading -/

theorem splitFrom_inWord_nil (done : List Char) :
    splitFrom (.inWord done) [] = some [done.reverse] := rfl

theorem splitFrom_inQuotes_cons (done : List Char) (c : Char) (rest : List Char) :
    splitFrom (.inQuotes done) (c :: rest) =
      if c = '\'' then splitFrom (.inWord done) rest
      else splitFrom (.inQuotes (c :: done)) rest := rfl

/-- In a word, a character after a backslash stands for itself. -/
theorem splitFrom_inWord_backslash (done : List Char) (c : Char) (rest : List Char) :
    splitFrom (.inWord done) ('\\' :: c :: rest) = splitFrom (.inWord (c :: done)) rest := rfl

/-- In a word, any character but a backslash parts words, begins a quotation or stands for
itself. -/
theorem splitFrom_inWord_cons (h : c ≠ '\\') :
    splitFrom (.inWord done) (c :: rest) =
      if separatesWords c then (splitFrom .between rest).map (done.reverse :: ·)
      else if c = '\'' then splitFrom (.inQuotes done) rest
      else splitFrom (.inWord (c :: done)) rest := by
  simp [splitFrom, h]

/-- A word begins with any character that does not part words. -/
theorem splitFrom_between (h : separatesWords c = false) :
    splitFrom .between (c :: rest) = splitFrom (.inWord []) (c :: rest) := by
  by_cases hc : c = '\\'
  · subst hc
    cases rest <;> simp [splitFrom, h]
  · simp [splitFrom, h, hc]

/-- A plain character stands for itself. -/
theorem splitFrom_plain (h : isPlain c = true) :
    splitFrom (.inWord done) (c :: rest) = splitFrom (.inWord (c :: done)) rest := by
  rw [splitFrom_inWord_cons (ne_of_isPlain h (by decide)), separatesWords_of_isPlain h,
    if_neg Bool.false_ne_true, if_neg (ne_of_isPlain h (by decide))]

theorem splitFrom_plainWord (h : word.all isPlain = true) :
    splitFrom (.inWord done) (word ++ rest) = splitFrom (.inWord (word.reverse ++ done)) rest := by
  induction word generalizing done with
  | nil => rfl
  | cons c word ih =>
    rw [List.all_cons, Bool.and_eq_true] at h
    rw [List.cons_append, splitFrom_plain h.1, ih h.2, List.reverse_cons, List.append_assoc]
    rfl

/-- A single quote ends a quotation or begins one. -/
theorem splitFrom_endQuote :
    splitFrom (.inQuotes done) ('\'' :: rest) = splitFrom (.inWord done) rest := by
  rw [splitFrom_inQuotes_cons, if_pos rfl]

theorem splitFrom_beginQuote :
    splitFrom (.inWord done) ('\'' :: rest) = splitFrom (.inQuotes done) rest := by
  rw [splitFrom_inWord_cons (by decide), if_neg (by decide), if_pos rfl]

/-- Between single quotes every character is written so that it is read back. -/
theorem splitFrom_quoteChar :
    splitFrom (.inQuotes done) (quoteChar c ++ rest) = splitFrom (.inQuotes (c :: done)) rest := by
  unfold quoteChar
  split
  · next hc =>
    -- The quotation ends, a backslash quotes the single quote, and a new quotation begins.
    subst hc
    show splitFrom (.inQuotes done) ('\'' :: '\\' :: '\'' :: '\'' :: rest) = _
    rw [splitFrom_endQuote, splitFrom_inWord_backslash, splitFrom_beginQuote]
  · next hc => rw [List.singleton_append, splitFrom_inQuotes_cons, if_neg hc]

theorem splitFrom_quoteChars :
    splitFrom (.inQuotes done) (word.flatMap quoteChar ++ rest) =
      splitFrom (.inQuotes (word.reverse ++ done)) rest := by
  induction word generalizing done with
  | nil => rfl
  | cons c word ih =>
    rw [List.flatMap_cons, List.append_assoc, splitFrom_quoteChar, ih, List.reverse_cons,
      List.append_assoc]
    rfl

/-- A word as it is written begins with a character that does not part words. -/
theorem exists_quoteWord_eq_cons (word : List Char) :
    ∃ c more, quoteWord word = c :: more ∧ separatesWords c = false := by
  unfold quoteWord
  split
  · next hplain =>
    obtain ⟨c, more, rfl⟩ := List.exists_cons_of_ne_nil hplain.1
    have hc := List.all_eq_true.mp hplain.2 c List.mem_cons_self
    exact ⟨c, more, rfl, separatesWords_of_isPlain hc⟩
  · exact ⟨'\'', _, rfl, by decide⟩

/-- The reader of words goes over a word as it is written, and has read the word. -/
theorem splitFrom_quoteWord (word rest : List Char) :
    splitFrom .between (quoteWord word ++ rest) = splitFrom (.inWord word.reverse) rest := by
  obtain ⟨c, more, hword, hc⟩ := exists_quoteWord_eq_cons word
  have hbegin : splitFrom .between (quoteWord word ++ rest) =
      splitFrom (.inWord []) (quoteWord word ++ rest) := by
    rw [hword]
    exact splitFrom_between hc
  rw [hbegin, quoteWord]
  split
  · next hplain => rw [splitFrom_plainWord hplain.2, List.append_nil]
  · rw [List.cons_append, splitFrom_beginQuote, List.append_assoc, splitFrom_quoteChars,
      List.append_nil]
    exact splitFrom_endQuote

theorem splitWords_quoteWord (word : List Char) : splitWords (quoteWord word) = some [word] := by
  have h := splitFrom_quoteWord word []
  rw [List.append_nil] at h
  rw [splitWords, h, splitFrom_inWord_nil, List.reverse_reverse]

/-- Words that are written in one line are read back. -/
theorem splitWords_wordsLine (words : List (List Char)) :
    splitWords (wordsLine words) = some words := by
  induction words with
  | nil => rfl
  | cons word words ih =>
    cases words with
    | nil => exact splitWords_quoteWord word
    | cons next words =>
      have hline : wordsLine (word :: next :: words) =
          quoteWord word ++ ' ' :: wordsLine (next :: words) := rfl
      have hparts : ∀ rest, splitFrom (.inWord word.reverse) (' ' :: rest) =
          (splitFrom .between rest).map (word :: ·) := by
        intro rest
        rw [splitFrom_inWord_cons (by decide), if_pos (by decide), List.reverse_reverse]
      rw [splitWords] at ih
      rw [splitWords, hline, splitFrom_quoteWord, hparts, ih, Option.map_some]

/-! ## What stands bare -/

/-- The characters of a text outside single quotes, those single quotes apart that a backslash
quotes; the text begins between single quotes or outside. -/
def bare : Bool → List Char → List Char
  | _, [] => []
  | true, c :: rest => bare (c ≠ '\'') rest
  | false, '\\' :: '\'' :: rest => bare false rest
  | false, c :: rest => if c = '\'' then bare true rest else c :: bare false rest

/-- Outside single quotes, any character but a backslash begins a quotation or stands bare. -/
theorem bare_outside (h : c ≠ '\\') :
    bare false (c :: rest) = if c = '\'' then bare true rest else c :: bare false rest := by
  simp [bare, h]

theorem bare_inside (h : c ≠ '\'') : bare true (c :: rest) = bare true rest := by
  show bare (c ≠ '\'') rest = bare true rest
  rw [decide_eq_true h]

theorem bare_plainWord (h : word.all isPlain = true) : bare false word = word := by
  induction word with
  | nil => rfl
  | cons c word ih =>
    rw [List.all_cons, Bool.and_eq_true] at h
    rw [bare_outside (ne_of_isPlain h.1 (by decide)), if_neg (ne_of_isPlain h.1 (by decide)),
      ih h.2]

/-- Nothing that stands for a character between single quotes is bare. -/
theorem bare_quoteChar : bare true (quoteChar c ++ rest) = bare true rest := by
  unfold quoteChar
  split
  · rfl
  · next hc => exact bare_inside hc

theorem bare_quoteChars : bare true (word.flatMap quoteChar ++ rest) = bare true rest := by
  induction word with
  | nil => rfl
  | cons c word ih => rw [List.flatMap_cons, List.append_assoc, bare_quoteChar, ih]

/-- Of a word as it is written only plain characters stand bare. -/
theorem bare_quoteWord (h : c ∈ bare false (quoteWord word)) : isPlain c = true := by
  unfold quoteWord at h
  split at h
  · next hplain =>
    rw [bare_plainWord hplain.2] at h
    exact List.all_eq_true.mp hplain.2 c h
  · have hquoted : bare false ('\'' :: (word.flatMap quoteChar ++ ['\''])) = [] := by
      simp [bare, bare_quoteChars]
    rw [hquoted] at h
    cases h

/-! ## Command lines -/

theorem toList_commandLine (command : String) (args : List String) :
    (commandLine command args).toList = wordsLine ((command :: args).map String.toList) := by
  rw [commandLine, String.toList_ofList]

/-- A command line is read back as the command and its arguments. -/
theorem splitWords_commandLine (command : String) (args : List String) :
    splitWords (commandLine command args).toList = some ((command :: args).map String.toList) := by
  rw [toList_commandLine, splitWords_wordsLine]

/--
**A command line is faithful.**

A shell that splits it into words reads the command and its arguments, whatever their characters
are.  The line is made of one piece for each of them, with one blank between two pieces; a piece is
one word, and of it nothing special stands bare.  So no other command has this line.
-/
theorem commandLine_faithful (command : String) (args : List String) :
    splitWords (commandLine command args).toList = some ((command :: args).map String.toList) ∧
    (∃ pieces, (commandLine command args).toList = join ' ' pieces ∧
      List.Forall₂ (fun piece word => splitWords piece = some [word.toList] ∧
        ∀ c ∈ bare false piece, isSpecial c = false) pieces (command :: args)) ∧
    ∀ command' args', commandLine command' args' = commandLine command args ↔
      command' = command ∧ args' = args := by
  refine ⟨splitWords_commandLine command args, ?_, fun command' args' => ?_⟩
  · refine ⟨(command :: args).map fun word => quoteWord word.toList, ?_, ?_⟩
    · rw [toList_commandLine, wordsLine, List.map_map]
      rfl
    · rw [List.forall₂_map_left_iff, List.forall₂_same]
      intro word _
      exact ⟨splitWords_quoteWord word.toList,
        fun c hc => isSpecial_of_isPlain (bare_quoteWord hc)⟩
  · constructor
    · intro h
      have hread := splitWords_commandLine command' args'
      rw [h, splitWords_commandLine] at hread
      have hwords : command :: args = command' :: args' :=
        List.map_injective_iff.mpr (fun _ _ => String.toList_inj.mp) (Option.some.inj hread)
      obtain ⟨rfl, rfl⟩ := List.cons_eq_cons.mp hwords
      exact ⟨rfl, rfl⟩
    · rintro ⟨rfl, rfl⟩
      rfl

/-- Quotes at either end of a word, a word without characters, and a line end. -/
example : splitWords (commandLine "run" ["'it''s'", "", "a\n$b", "é"]).toList =
    some ["run".toList, "'it''s'".toList, [], "a\n$b".toList, "é".toList] := by decide

end GoldenRun.Shell
