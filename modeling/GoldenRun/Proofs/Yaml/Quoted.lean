import GoldenRun.Proofs.Text.Units
import GoldenRun.Proofs.Yaml.Reading
import GoldenRun.Yaml.ScalarText

/-!
# Quoted scalars read back

* `goes_singleScalar`: what is written between single quotes is read as it was
* `goes_doubleScalar`: what is written between double quotes is read as it was
-/

namespace GoldenRun.Yaml

open GoldenRun.Number GoldenRun.Text Reading Cursor

variable {c d : Cursor} {rest text piece white result : List Char} {x y : Char} {fuel : Nat}

/-- A printable character neither ends a line nor is a control character. -/
theorem not_control_of_printable (h : isPrintable x = true) :
    isControl x = false ∧ isBreak x = false := by
  have hfeed : x ≠ '\n' := by
    rintro rfl
    exact absurd h (by decide)
  have hreturn : x ≠ '\r' := by
    rintro rfl
    exact absurd h (by decide)
  constructor
  · have hcontrol : ¬ x.toNat < 0x20 := by
      intro hlow
      simp only [isPrintable, Bool.or_eq_true, Bool.and_eq_true, decide_eq_true_eq] at h
      omega
    simp [isControl, hcontrol]
  · simp [isBreak, hfeed, hreturn]

theorem goes_checkQuoted (h : ∀ x ∈ piece, isControl x = false) (d : Cursor) :
    Goes (checkQuoted d piece) c () c := by
  have hnone : piece.any isControl = false := by simpa using h
  rw [checkQuoted, hnone]
  exact .pure () c

/-- A character as it stands between single quotes. -/
def singleQuote (c : Char) : List Char := if c = '\'' then ['\'', '\''] else [c]

/-- A quote that is not doubled ends the scalar. -/
theorem goes_singleQuoted_end (hrest : c.rest = '\'' :: rest) (hquote : rest.head? ≠ some '\'')
    (hclean : ∀ y ∈ (white ++ piece).reverse, isControl y = false) :
    Goes (singleQuoted (fuel + 1) text piece white) c (text ++ (white ++ piece).reverse)
      c.advance := by
  have hsecond : c.second? ≠ some '\'' := by
    rw [second?, hrest]
    simpa [List.head?_eq_getElem?] using hquote
  rw [singleQuoted]
  refine .cursor_bind ?_
  rw [peek?_of_rest hrest]
  simp only [if_true]
  refine .bind (goes_checkQuoted hclean c) ?_
  rw [if_neg hsecond]
  exact .moveTo_bind (.pure _ _)

/-- Two quotes are one. -/
theorem goes_singleQuoted_quote (hrest : c.rest = '\'' :: '\'' :: rest)
    (hclean : ∀ y ∈ (white ++ piece).reverse, isControl y = false)
    (hread : Goes (singleQuoted fuel (text ++ (white ++ piece).reverse) ['\''] [])
      c.advance.advance result d) :
    Goes (singleQuoted (fuel + 1) text piece white) c result d := by
  rw [singleQuoted]
  refine .cursor_bind ?_
  rw [peek?_of_rest hrest]
  simp only [if_true]
  refine .bind (goes_checkQuoted hclean c) ?_
  rw [if_pos (second?_of_rest hrest)]
  exact .moveTo_bind hread

/-- Any other character stands for itself. -/
theorem goes_singleQuoted_plain (hrest : c.rest = x :: rest) (hquote : x ≠ '\'')
    (hbreak : isBreak x = false) (hline : c.InLine)
    (hread : ∀ piece' white', (white' ++ piece').reverse = (white ++ piece).reverse ++ [x] →
      Goes (singleQuoted fuel text piece' white') c.advance result d) :
    Goes (singleQuoted (fuel + 1) text piece white) c result d := by
  rw [singleQuoted]
  refine .cursor_bind ?_
  rw [peek?_of_rest hrest]
  simp only [if_neg hquote, hbreak, hline.not_atDocumentMark, Bool.false_eq_true, if_false]
  refine .moveTo_bind ?_
  split
  · exact hread _ _ (by simp)
  · exact hread _ _ (by simp)

theorem goes_singleQuoted {todo whole : List Char} (hprintable : ∀ x ∈ todo, isPrintable x = true)
    (hfuel : (todo.flatMap singleQuote).length < fuel) (hline : c.InLine)
    (hrest : c.rest = todo.flatMap singleQuote ++ '\'' :: rest) (hquote : rest.head? ≠ some '\'')
    (hwhole : (white ++ piece).reverse = whole) (hclean : ∀ y ∈ whole, isControl y = false) :
    Goes (singleQuoted fuel text piece white) c (text ++ whole ++ todo)
      (advanceBy ((todo.flatMap singleQuote).length + 1) c) := by
  -- What is not yet put away is known only as a whole: white space may turn out to be part of it.
  induction todo generalizing c fuel text piece white whole with
  | nil =>
    obtain ⟨fuel, rfl⟩ := Nat.exists_eq_add_one.mpr (Nat.zero_lt_of_lt hfuel)
    subst hwhole
    rw [List.append_nil]
    exact goes_singleQuoted_end hrest hquote hclean
  | cons x todo ih =>
    obtain ⟨fuel, rfl⟩ := Nat.exists_eq_add_one.mpr (Nat.zero_lt_of_lt hfuel)
    obtain ⟨hx, htodo⟩ := List.forall_mem_cons.mp hprintable
    obtain ⟨hcontrol, hbreak⟩ := not_control_of_printable hx
    rw [List.flatMap_cons, List.append_assoc] at hrest
    rw [List.flatMap_cons, List.length_append] at hfuel
    rw [List.flatMap_cons, advanceBy_length_append]
    by_cases hx' : x = '\''
    · subst hx' hwhole
      have hlength : (singleQuote '\'').length = 2 := rfl
      have hbehind := rest_advance_of_rest (rest_advance_of_rest hrest)
      have hvalue : text ++ (white ++ piece).reverse ++ '\'' :: todo =
          text ++ (white ++ piece).reverse ++ ['\''] ++ todo := by simp
      rw [hvalue]
      exact goes_singleQuoted_quote hrest hclean
        (ih htodo (by omega) hline.advance.advance hbehind rfl (by simpa using hcontrol))
    · have hone : singleQuote x = [x] := if_neg hx'
      have hvalue : text ++ whole ++ x :: todo = text ++ (whole ++ [x]) ++ todo := by simp
      rw [hone] at hfuel hrest ⊢
      rw [hvalue]
      refine goes_singleQuoted_plain hrest hx' hbreak hline fun piece' white' hwhole' => ?_
      rw [hwhole] at hwhole'
      rw [List.length_singleton] at hfuel
      exact ih htodo (by omega) hline.advance (rest_advance_of_rest hrest) hwhole'
        (List.forall_mem_append.mpr ⟨hclean, by simpa using hcontrol⟩)

/-- What is written between single quotes is read as it was. -/
theorem goes_singleScalar (hprintable : ∀ x ∈ text, isPrintable x = true)
    (hrest : c.rest = singleText text ++ rest) (hquote : rest.head? ≠ some '\'')
    (hline : c.InLine) :
    Goes singleScalar c (some text) (advanceBy (singleText text).length c) := by
  have hquoted : singleText text = '\'' :: (text.flatMap singleQuote ++ ['\'']) := rfl
  rw [hquoted, List.cons_append, List.append_assoc] at hrest
  have hbehind := rest_advance_of_rest hrest
  have hlength : (singleText text).length = (text.flatMap singleQuote).length + 1 + 1 := by
    rw [hquoted, List.length_cons, List.length_append, List.length_singleton]
  have hfuel : (text.flatMap singleQuote).length < c.rest.length + 1 := by
    rw [hrest, List.length_cons, List.length_append]
    omega
  rw [singleScalar, hlength]
  refine .cursor_bind ?_
  rw [sees_of_rest hrest]
  simp only [decide_true, if_true]
  refine .moveTo_bind (.bind ?_ (.pure _ _))
  exact goes_singleQuoted hprintable hfuel hline.advance hbehind hquote rfl (by simp)

/-! ## Double quotes -/

/-- Digits of an escape are read as the number that they spell. -/
theorem goes_escapeNumber {digits : List Char} {values : List Nat} {n : Nat}
    (hdigits : digits.map digitValue? = values.map some) (hrest : c.rest = digits ++ rest) :
    Goes (escapeNumber digits.length n) c (values.foldl (fun n d => n * 16 + d) n)
      (advanceBy digits.length c) := by
  induction digits generalizing c values n with
  | nil =>
    obtain rfl : values = [] := by simpa using hdigits.symm
    exact .pure _ _
  | cons x digits ih =>
    cases values with
    | nil => cases hdigits
    | cons d values =>
      rw [List.map_cons, List.map_cons, List.cons.injEq] at hdigits
      simp only [List.length_cons, escapeNumber]
      refine .cursor_bind ?_
      rw [peek?_of_rest hrest, Option.bind_some, hdigits.1]
      exact .moveTo_bind (ih hdigits.2 (rest_advance_of_rest hrest))

/-- How a character stands between double quotes, and how it is read there. -/
inductive Escapes (x : Char) : Prop where
  /-- As it is. -/
  | plain (text : escapeChar x = [x]) (quote : x ≠ '"') (slash : x ≠ '\\')
      (printable : isPrintable x = true)
  /-- As a letter behind a backslash. -/
  | letter (y : Char) (text : escapeChar x = ['\\', y]) (line : isBreak y = false)
      (meaning : simpleEscape? y = some x)
  /-- As a number behind a letter. -/
  | number (y : Char) (digits : List Char) (values : List Nat)
      (text : escapeChar x = '\\' :: y :: digits) (line : isBreak y = false)
      (letter : simpleEscape? y = none) (count : escapeDigits? y = some digits.length)
      (digits' : digits.map digitValue? = values.map some)
      (meaning : escapedUnits (values.foldl (fun n d => n * 16 + d) 0) = units x)

/-- A character that is not printable and that is no single byte is one of a few. -/
theorem toNat_of_not_printable {x : Char} (h : isPrintable x = false) (hlarge : ¬ x.toNat ≤ 0xFF) :
    x.toNat ∈ [0x2028, 0x2029, 0xFEFF, 0xFFFE, 0xFFFF] := by
  have hvalid : x.toNat < 0xD800 ∨ 0xDFFF < x.toNat ∧ x.toNat < 0x110000 := x.valid
  simp only [isPrintable, Bool.or_eq_false_iff, Bool.and_eq_false_iff, decide_eq_false_iff_not,
    bne_eq_false_iff_eq] at h
  simp only [List.mem_cons, List.not_mem_nil, or_false]
  omega

/-- The values of digits. -/
def digitValues (digits : List Char) : List Nat := digits.map fun x => (digitValue? x).getD 0

/-- A number is spelled with so many digits. -/
def Spelled (columns n : Nat) : Prop :=
  (hexText columns n).length = columns ∧
    (hexText columns n).map digitValue? = (digitValues (hexText columns n)).map some ∧
    (digitValues (hexText columns n)).foldl (fun n d => n * 16 + d) 0 = n

instance (columns n : Nat) : Decidable (Spelled columns n) :=
  inferInstanceAs (Decidable (_ ∧ _ ∧ _))

theorem spelled_of_byte : ∀ n < 0x100, Spelled 2 n := by decide +kernel

theorem spelled_of_rare :
    ∀ n ∈ [0x2028, 0x2029, 0xFEFF, 0xFFFE, 0xFFFF], n ≤ 0xFFFF ∧ Spelled 4 n := by
  decide +kernel

theorem Spelled.escapes {columns : Nat} (h : Spelled columns x.toNat) (hsmall : x.toNat ≤ 0xFFFF)
    (htext : escapeChar x = '\\' :: y :: hexText columns x.toNat) (hbreak : isBreak y = false)
    (hletter : simpleEscape? y = none) (hcount : escapeDigits? y = some columns) : Escapes x := by
  obtain ⟨hlength, hdigits, hvalue⟩ := h
  refine .number y _ _ htext hbreak hletter (by rw [hlength, hcount]) hdigits ?_
  have hlow : x.toNat % 0x100000000 ≤ 0xFFFF := by omega
  have hmod : x.toNat % 0x100000000 % 0x10000 = x.toNat := by omega
  rw [hvalue, escapedUnits, if_pos (.inl hlow), hmod, units, if_pos (by omega)]

/-- Every character stands between double quotes in a way in which it can be read. -/
theorem escapes (x : Char) : Escapes x := by
  cases hletter : escapeLetter? x with
  | some y =>
    obtain ⟨before, behind, hsplit, -⟩ := List.lookup_eq_some_iff.mp hletter
    have hall : ∀ p ∈ before ++ (x, y) :: behind,
        isBreak p.2 = false ∧ simpleEscape? p.2 = some p.1 := by
      rw [← hsplit]
      decide
    obtain ⟨hbreak, hmeaning⟩ := hall (x, y) (List.mem_append_right _ List.mem_cons_self)
    exact .letter y (by simp [escapeChar, hletter]) hbreak hmeaning
  | none =>
    have hplain : ∀ z, escapeLetter? z ≠ none → x ≠ z := fun z hz same => hz (same ▸ hletter)
    cases hprintable : isPrintable x with
    | true =>
      exact .plain (by simp [escapeChar, hletter, hprintable]) (hplain _ (by decide))
        (hplain _ (by decide)) hprintable
    | false =>
      by_cases hbyte : x.toNat ≤ 0xFF
      · refine (spelled_of_byte x.toNat (by omega)).escapes (y := 'x') (by omega) ?_ (by decide)
          (by decide) (by decide)
        simp [escapeChar, hletter, hprintable, hbyte]
      · obtain ⟨hsmall, hspelled⟩ :=
          spelled_of_rare x.toNat (toNat_of_not_printable hprintable hbyte)
        refine hspelled.escapes (y := 'u') hsmall ?_ (by decide) (by decide) (by decide)
        simp [escapeChar, hletter, hprintable, hbyte, hsmall]

section DoubleQuoted

variable {text result : List Nat}

theorem goes_doubleQuoted_end (hrest : c.rest = '"' :: rest)
    (hclean : ∀ y ∈ (white ++ piece).reverse, isControl y = false) :
    Goes (doubleQuoted (fuel + 1) text piece white) c
      (text ++ (white ++ piece).reverse.flatMap units) c.advance := by
  rw [doubleQuoted]
  refine .cursor_bind ?_
  rw [peek?_of_rest hrest]
  simp only [if_true]
  refine .bind (goes_checkQuoted hclean c) ?_
  exact .moveTo_bind (.pure _ _)

theorem goes_doubleQuoted_plain (hrest : c.rest = x :: rest) (hquote : x ≠ '"') (hslash : x ≠ '\\')
    (hbreak : isBreak x = false) (hline : c.InLine)
    (hread : ∀ piece' white', (white' ++ piece').reverse = (white ++ piece).reverse ++ [x] →
      Goes (doubleQuoted fuel text piece' white') c.advance result d) :
    Goes (doubleQuoted (fuel + 1) text piece white) c result d := by
  rw [doubleQuoted]
  refine .cursor_bind ?_
  rw [peek?_of_rest hrest]
  simp only [if_neg hquote, if_neg hslash, hbreak, hline.not_atDocumentMark, Bool.false_eq_true,
    if_false]
  refine .moveTo_bind ?_
  split
  · exact hread _ _ (by simp)
  · exact hread _ _ (by simp)

theorem goes_doubleQuoted_letter (hrest : c.rest = '\\' :: y :: rest)
    (hclean : ∀ y ∈ (white ++ piece).reverse, isControl y = false) (hbreak : isBreak y = false)
    (hmeaning : simpleEscape? y = some x)
    (hread : Goes (doubleQuoted fuel (text ++ (white ++ piece).reverse.flatMap units ++ units x)
      [] []) c.advance.advance result d) :
    Goes (doubleQuoted (fuel + 1) text piece white) c result d := by
  rw [doubleQuoted]
  refine .cursor_bind ?_
  rw [peek?_of_rest hrest]
  simp only [if_true, if_neg (by decide : '\\' ≠ '"')]
  refine .bind (goes_checkQuoted hclean c) (.moveTo_bind ?_)
  rw [second?_of_rest hrest]
  simp only [hbreak, Bool.false_eq_true, if_false, hmeaning]
  exact .moveTo_bind hread

theorem goes_doubleQuoted_number {digits : List Char} {values : List Nat}
    (hrest : c.rest = '\\' :: y :: (digits ++ rest))
    (hclean : ∀ y ∈ (white ++ piece).reverse, isControl y = false) (hbreak : isBreak y = false)
    (hletter : simpleEscape? y = none) (hcount : escapeDigits? y = some digits.length)
    (hdigits : digits.map digitValue? = values.map some)
    (hread : Goes (doubleQuoted fuel (text ++ (white ++ piece).reverse.flatMap units ++
      escapedUnits (values.foldl (fun n d => n * 16 + d) 0)) [] [])
      (advanceBy digits.length c.advance.advance) result d) :
    Goes (doubleQuoted (fuel + 1) text piece white) c result d := by
  have hbehind := rest_advance_of_rest (rest_advance_of_rest hrest)
  rw [doubleQuoted]
  refine .cursor_bind ?_
  rw [peek?_of_rest hrest]
  simp only [if_true, if_neg (by decide : '\\' ≠ '"')]
  refine .bind (goes_checkQuoted hclean c) (.moveTo_bind ?_)
  rw [second?_of_rest hrest]
  simp only [hbreak, Bool.false_eq_true, if_false, hletter, hcount]
  exact .moveTo_bind (.bind (goes_escapeNumber hdigits hbehind) hread)

theorem goes_doubleQuoted {todo whole : List Char}
    (hfuel : (todo.flatMap escapeChar).length < fuel) (hline : c.InLine)
    (hrest : c.rest = todo.flatMap escapeChar ++ '"' :: rest)
    (hwhole : (white ++ piece).reverse = whole) (hclean : ∀ y ∈ whole, isControl y = false) :
    Goes (doubleQuoted fuel text piece white) c (text ++ (whole ++ todo).flatMap units)
      (advanceBy ((todo.flatMap escapeChar).length + 1) c) := by
  induction todo generalizing c fuel text piece white whole with
  | nil =>
    obtain ⟨fuel, rfl⟩ := Nat.exists_eq_add_one.mpr (Nat.zero_lt_of_lt hfuel)
    subst hwhole
    rw [List.append_nil]
    exact goes_doubleQuoted_end hrest hclean
  | cons x todo ih =>
    obtain ⟨fuel, rfl⟩ := Nat.exists_eq_add_one.mpr (Nat.zero_lt_of_lt hfuel)
    rw [List.flatMap_cons, List.append_assoc] at hrest
    rw [List.flatMap_cons, List.length_append] at hfuel
    rw [List.flatMap_cons, advanceBy_length_append]
    -- Behind an escape what was read so far is put away.
    have hvalue : text ++ (whole ++ x :: todo).flatMap units =
        text ++ whole.flatMap units ++ units x ++ ([] ++ todo).flatMap units := by
      simp [List.flatMap_append]
    cases escapes x with
    | plain htext hquote hslash hprintable =>
      obtain ⟨hcontrol, hbreak⟩ := not_control_of_printable hprintable
      have hsplit : whole ++ x :: todo = whole ++ [x] ++ todo := by simp
      rw [htext] at hfuel hrest ⊢
      rw [hsplit]
      refine goes_doubleQuoted_plain hrest hquote hslash hbreak hline
        fun piece' white' hwhole' => ?_
      rw [hwhole] at hwhole'
      rw [List.length_singleton] at hfuel
      exact ih (by omega) hline.advance (rest_advance_of_rest hrest) hwhole'
        (List.forall_mem_append.mpr ⟨hclean, by simpa using hcontrol⟩)
    | letter y htext hbreak hmeaning =>
      subst hwhole
      rw [htext] at hfuel hrest ⊢
      have hlength : ['\\', y].length = 2 := rfl
      have hbehind := rest_advance_of_rest (rest_advance_of_rest hrest)
      rw [hvalue]
      exact goes_doubleQuoted_letter hrest hclean hbreak hmeaning
        (ih (by omega) hline.advance.advance hbehind rfl (by simp))
    | number y digits values htext hbreak hletter hcount hdigits hmeaning =>
      subst hwhole
      rw [htext] at hfuel hrest ⊢
      rw [List.length_cons, List.length_cons] at hfuel
      have hbehind := rest_advance_of_rest (rest_advance_of_rest hrest)
      rw [hvalue, ← hmeaning]
      exact goes_doubleQuoted_number hrest hclean hbreak hletter hcount hdigits
        (ih (by omega) (hline.advance.advance.advanceBy _) (rest_advanceBy_of_rest hbehind) rfl
          (by simp))

end DoubleQuoted

/-- What is written between double quotes is read as it was. -/
theorem goes_doubleScalar (hrest : c.rest = doubleText text ++ rest) (hline : c.InLine) :
    Goes doubleScalar c (some text) (advanceBy (doubleText text).length c) := by
  rw [doubleText, List.cons_append, List.append_assoc] at hrest
  have hbehind := rest_advance_of_rest hrest
  have hlength : (doubleText text).length = (text.flatMap escapeChar).length + 1 + 1 := by
    rw [doubleText, List.length_cons, List.length_append, List.length_singleton]
  have hfuel : (text.flatMap escapeChar).length < c.rest.length + 1 := by
    rw [hrest, List.length_cons, List.length_append]
    omega
  have hread : Goes (doubleQuoted (c.rest.length + 1) [] [] []) c.advance (text.flatMap units)
      (advanceBy ((text.flatMap escapeChar).length + 1) c.advance) :=
    goes_doubleQuoted hfuel hline.advance hbehind rfl (by simp)
  have hvalue : Goes (pure (some (ofUnits (text.flatMap units))) : Reading _)
      (advanceBy ((text.flatMap escapeChar).length + 1) c.advance) (some text)
      (advanceBy ((text.flatMap escapeChar).length + 1) c.advance) := by
    rw [ofUnits_flatMap_units]
    exact .pure _ _
  rw [doubleScalar, hlength]
  refine .cursor_bind ?_
  rw [sees_of_rest hrest]
  simp only [decide_true, if_true]
  exact .moveTo_bind (.bind hread hvalue)

end GoldenRun.Yaml
