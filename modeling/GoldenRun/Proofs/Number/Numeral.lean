import GoldenRun.Proofs.Number.Rounding

/-!
# Numerals and what they denote

The numerals form a grammar (`Denotes`) that gives each its value as a rational number: a decimal
may have a sign, a point and a power of ten, and a whole number in base sixteen, eight or two stands
behind its mark, without a sign.  Around a numeral there may be blanks (`IsNumeral`).

The reader takes a decimal apart in three stages: its sign, its digits with their point, and its
power of ten.

* `takeSign_spec`, `takePower_spec`, `takeDecimal_sound`: what a stage takes is in the grammar
* `takeSign_append`, `takePower_of_isPower`, `takeDecimal_of_isMantissa`: and all of it is taken
* `IsNumeral.unique`: a numeral denotes one number
* `readNumeral_isNearest`: a numeral is read as the number nearest to what it denotes
* `isNumeral_of_isFinite`: nothing else is read as a finite number, but blanks as zero
-/

namespace GoldenRun.Number

open GoldenRun.Text Binary64

/-! ## The grammar -/

/-- Digits of a base, if any. -/
def AreDigits (base : ℕ) (digits : List Char) : Prop := ∀ c ∈ digits, isDigitOf base c = true

instance (base : ℕ) (digits : List Char) : Decidable (AreDigits base digits) :=
  decidable_of_iff (digits.all (isDigitOf base) = true) List.all_eq_true

/-- An optional sign, and whether it is a minus. -/
inductive IsSign : List Char → Bool → Prop where
  /-- No sign. -/
  | none : IsSign [] false
  /-- A plus. -/
  | plus : IsSign ['+'] false
  /-- A minus. -/
  | minus : IsSign ['-'] true

/-- The digits of a decimal, before its point and behind it.  There is one at least. -/
inductive IsMantissa : List Char → List Char → List Char → Prop where
  /-- Without a point. -/
  | plain {whole : List Char} (hwhole : AreDigits 10 whole) (hne : whole ≠ []) :
      IsMantissa whole whole []
  /-- With a point. -/
  | pointed {whole fraction : List Char} (hwhole : AreDigits 10 whole)
      (hfraction : AreDigits 10 fraction) (hne : whole ++ fraction ≠ []) :
      IsMantissa (whole ++ '.' :: fraction) whole fraction

/-- An optional power of ten. -/
inductive IsPower : List Char → ℤ → Prop where
  /-- No power. -/
  | none : IsPower [] 0
  /-- A power, which may have a sign. -/
  | written {mark : Char} {sign digits : List Char} {negative : Bool}
      (hmark : mark = 'e' ∨ mark = 'E') (hsign : IsSign sign negative)
      (hdigits : AreDigits 10 digits) (hne : digits ≠ []) :
      IsPower (mark :: (sign ++ digits))
        (if negative then -(digitsValue 10 digits : ℤ) else digitsValue 10 digits)

/-- The marks of the bases. -/
inductive IsBaseMark : Char → ℕ → Prop where
  /-- Sixteen. -/
  | hexadecimal {mark : Char} (h : mark = 'x' ∨ mark = 'X') : IsBaseMark mark 16
  /-- Eight. -/
  | octal {mark : Char} (h : mark = 'o' ∨ mark = 'O') : IsBaseMark mark 8
  /-- Two. -/
  | binary {mark : Char} (h : mark = 'b' ∨ mark = 'B') : IsBaseMark mark 2

/-- `Denotes text q`: `text` is a numeral, and it denotes `q`. -/
inductive Denotes : List Char → ℚ → Prop where
  /-- A decimal. -/
  | decimal {sign mantissa whole fraction power : List Char} {negative : Bool} {exponent : ℤ}
      (hsign : IsSign sign negative) (hmantissa : IsMantissa mantissa whole fraction)
      (hpower : IsPower power exponent) :
      Denotes (sign ++ (mantissa ++ power)) ((if negative then -1 else 1) *
        (digitsValue 10 (whole ++ fraction) * 10 ^ (exponent - fraction.length)))
  /-- A whole number in another base. -/
  | based {mark : Char} {base : ℕ} {digits : List Char} (hmark : IsBaseMark mark base)
      (hdigits : AreDigits base digits) (hne : digits ≠ []) :
      Denotes ('0' :: mark :: digits) (digitsValue base digits)

/-- `IsNumeral text q`: blanks around it aside, `text` is a numeral that denotes `q`. -/
def IsNumeral (text : String) (q : ℚ) : Prop :=
  ∃ before numeral after, text.toList = before ++ numeral ++ after ∧ allBlank before = true ∧
    allBlank after = true ∧ Denotes numeral q

variable {base : ℕ} {negative : Bool} {digits whole fraction mantissa power rest text : List Char}
  {exponent : ℤ} {q : ℚ} {x : Binary64}

/-! ## Signs -/

theorem takeSign_spec (text : List Char) :
    ∃ sign, IsSign sign (takeSign text).1 ∧ text = sign ++ (takeSign text).2 := by
  unfold takeSign
  split
  · exact ⟨_, .plus, rfl⟩
  · exact ⟨_, .minus, rfl⟩
  · exact ⟨_, .none, rfl⟩

theorem takeSign_append {sign : List Char} (h : IsSign sign negative)
    (hplus : rest.head? ≠ some '+') (hminus : rest.head? ≠ some '-') :
    takeSign (sign ++ rest) = (negative, rest) := by
  cases h with
  | plus => rfl
  | minus => rfl
  | none =>
    rw [List.nil_append]
    unfold takeSign
    split
    · exact absurd rfl hplus
    · exact absurd rfl hminus
    · rfl

/-! ## Digits -/

theorem AreDigits.isDigit (h : AreDigits 10 digits) : ∀ c ∈ digits, c.isDigit = true :=
  fun c hc => isDigitOf_ten c ▸ h c hc

theorem areDigits_takeWhile (text : List Char) :
    AreDigits base (text.takeWhile (isDigitOf base)) :=
  List.all_eq_true.mp List.all_takeWhile

/-- Signs and points are no digits. -/
theorem ne_of_areDigits (h : AreDigits 10 digits) {c : Char} (hc : c.isDigit = false) :
    digits.head? ≠ some c := by
  intro hhead
  have hdigit := h.isDigit c (List.mem_of_mem_head? hhead)
  rw [hc] at hdigit
  cases hdigit

/-! ## Fractions and powers -/

/-- The fraction at the beginning of a text, with the text behind it. -/
def takeFraction : List Char → List Char × List Char
  | '.' :: rest => (rest.takeWhile (isDigitOf 10), rest.dropWhile (isDigitOf 10))
  | rest => ([], rest)

/-- The power of ten at the beginning of a text, with the text behind it. -/
def takePower (text : List Char) : ℤ × List Char :=
  match text with
  | mark :: rest =>
    let run := (takeSign rest).2.takeWhile (isDigitOf 10)
    if (mark = 'e' ∨ mark = 'E') ∧ run ≠ [] then
      (if (takeSign rest).1 then -(digitsValue 10 run : ℤ) else digitsValue 10 run,
        (takeSign rest).2.dropWhile (isDigitOf 10))
    else (0, text)
  | [] => (0, [])

/-- The stages of a decimal. -/
theorem takeDecimal_eq (text : List Char) :
    takeDecimal text =
      let body := (takeSign text).2
      let whole := body.takeWhile (isDigitOf 10)
      let fraction := takeFraction (body.dropWhile (isDigitOf 10))
      let power := takePower fraction.2
      if whole.isEmpty && fraction.1.isEmpty then none
      else some (.ofDecimal (takeSign text).1 (digitsValue 10 (whole ++ fraction.1))
        (power.1 - fraction.1.length), power.2) := rfl

theorem takeFraction_of_ne (h : text.head? ≠ some '.') : takeFraction text = ([], text) := by
  unfold takeFraction
  split
  · exact absurd rfl h
  · rfl

theorem takePower_of_ne {mark : Char} (h : ¬ (mark = 'e' ∨ mark = 'E')) :
    takePower (mark :: rest) = (0, mark :: rest) := if_neg fun hpower => h hpower.1

theorem takePower_spec (text : List Char) :
    ∃ power, IsPower power (takePower text).1 ∧ text = power ++ (takePower text).2 := by
  unfold takePower
  split
  · next mark rest =>
    obtain ⟨sign, hsign, hrest⟩ := takeSign_spec rest
    dsimp only
    split
    · next hpower =>
      refine ⟨_, .written hpower.1 hsign (areDigits_takeWhile _) hpower.2, ?_⟩
      rw [List.cons_append, List.append_assoc, List.takeWhile_append_dropWhile, ← hrest]
    · exact ⟨[], .none, rfl⟩
  · exact ⟨[], .none, rfl⟩

theorem takePower_of_isPower (h : IsPower power exponent) : takePower power = (exponent, []) := by
  cases h with
  | none => rfl
  | @written mark sign digits negative hmark hsign hdigits hne =>
    have hstop : ([] : List Char).head?.any Char.isDigit = false := rfl
    have htake := takeWhile_digits hdigits.isDigit hstop
    rw [List.append_nil] at htake
    have hread := takeSign_append hsign (ne_of_areDigits hdigits (by decide))
      (ne_of_areDigits hdigits (by decide))
    unfold takePower
    simp only [hread, htake.1, htake.2]
    exact if_pos ⟨hmark, hne⟩

/-! ## Decimals -/

/-- What is taken as a decimal is one. -/
theorem takeDecimal_sound (h : takeDecimal text = some (x, rest)) :
    ∃ sign mantissa power negative whole fraction exponent,
      text = sign ++ (mantissa ++ (power ++ rest)) ∧ IsSign sign negative ∧
        IsMantissa mantissa whole fraction ∧ IsPower power exponent ∧
        x = .ofDecimal negative (digitsValue 10 (whole ++ fraction))
          (exponent - fraction.length) := by
  obtain ⟨sign, hsign, htext⟩ := takeSign_spec text
  rw [takeDecimal_eq] at h
  generalize takeSign text = signed at h hsign htext
  obtain ⟨negative, body⟩ := signed
  dsimp only at h hsign htext
  have hbody : body.takeWhile (isDigitOf 10) ++ body.dropWhile (isDigitOf 10) = body :=
    List.takeWhile_append_dropWhile
  have hwhole : AreDigits 10 (body.takeWhile (isDigitOf 10)) := areDigits_takeWhile body
  generalize body.takeWhile (isDigitOf 10) = whole at h hwhole hbody
  generalize body.dropWhile (isDigitOf 10) = behind at h hbody
  split at h
  · cases h
  next hsome =>
  rw [Bool.and_eq_true, List.isEmpty_iff, List.isEmpty_iff, not_and] at hsome
  obtain ⟨power, hpower, hrest⟩ := takePower_spec (takeFraction behind).2
  cases h
  by_cases hpoint : ∃ more, behind = '.' :: more
  · obtain ⟨more, rfl⟩ := hpoint
    have hfraction : AreDigits 10 (takeFraction ('.' :: more)).1 := areDigits_takeWhile more
    refine ⟨sign, _, power, negative, _, _, _, ?_, hsign, .pointed hwhole hfraction ?_, hpower, rfl⟩
    · have hmore : (takeFraction ('.' :: more)).1 ++ (takeFraction ('.' :: more)).2 = more :=
        List.takeWhile_append_dropWhile
      rw [htext, ← hrest, List.append_assoc, List.cons_append, hmore, hbody]
    · intro hnil
      rw [List.append_eq_nil_iff] at hnil
      exact hsome hnil.1 hnil.2
  · have hplain : takeFraction behind = ([], behind) := by
      refine takeFraction_of_ne fun hhead => hpoint ?_
      exact ⟨_, List.eq_cons_of_mem_head? hhead⟩
    rw [hplain] at hsome hpower hrest ⊢
    refine ⟨sign, whole, power, negative, whole, [], _, ?_, hsign, .plain hwhole ?_, hpower, rfl⟩
    · rw [htext, ← hrest, hbody]
    · exact fun hnil => hsome hnil rfl

/-- A mantissa begins with a digit or its point. -/
theorem IsMantissa.head? (h : IsMantissa mantissa whole fraction) :
    ∃ c more, mantissa = c :: more ∧ (c.isDigit = true ∨ c = '.') := by
  have hdigits : ∀ {whole : List Char} (more : List Char), AreDigits 10 whole → whole ≠ [] →
      ∃ c more', whole ++ more = c :: more' ∧ (c.isDigit = true ∨ c = '.') := by
    intro whole more hwhole hne
    obtain ⟨c, others, rfl⟩ := List.exists_cons_of_ne_nil hne
    exact ⟨c, others ++ more, rfl, .inl (hwhole.isDigit c List.mem_cons_self)⟩
  cases h with
  | plain hwhole hne => simpa using hdigits [] hwhole hne
  | pointed hwhole hfraction hne =>
    by_cases hnil : whole = []
    · exact ⟨'.', fraction, by rw [hnil, List.nil_append], .inr rfl⟩
    · exact hdigits _ hwhole hnil

/-- A power of ten does not go on with a mantissa. -/
theorem IsPower.head? (h : IsPower power exponent) :
    power.head?.any Char.isDigit = false ∧ power.head? ≠ some '.' := by
  cases h with
  | none => exact ⟨rfl, nofun⟩
  | written hmark hsign hdigits hne =>
    rcases hmark with rfl | rfl <;> exact ⟨rfl, by simp⟩

theorem IsMantissa.ne_nil (h : IsMantissa mantissa whole fraction) : whole ++ fraction ≠ [] := by
  cases h with
  | plain hwhole hne => simpa using hne
  | pointed hwhole hfraction hne => exact hne

/-- Each stage takes its part of a decimal. -/
theorem stages_of_isMantissa {sign : List Char} (hsign : IsSign sign negative)
    (hmantissa : IsMantissa mantissa whole fraction) (hpower : IsPower power exponent) :
    takeSign (sign ++ (mantissa ++ power)) = (negative, mantissa ++ power) ∧
      (mantissa ++ power).takeWhile (isDigitOf 10) = whole ∧
      takeFraction ((mantissa ++ power).dropWhile (isDigitOf 10)) = (fraction, power) ∧
      takePower power = (exponent, []) := by
  have hunsigned : takeSign (sign ++ (mantissa ++ power)) = (negative, mantissa ++ power) := by
    obtain ⟨c, more, rfl, hc⟩ := hmantissa.head?
    refine takeSign_append hsign ?_ ?_ <;>
    · rintro ⟨rfl⟩
      exact absurd hc (by decide)
  refine ⟨hunsigned, ?_⟩
  obtain ⟨hstop, hpoint⟩ := hpower.head?
  have hrest := takePower_of_isPower hpower
  cases hmantissa with
  | plain hwhole hne =>
    obtain ⟨htake, hdrop⟩ := takeWhile_digits hwhole.isDigit hstop
    exact ⟨htake, by rw [hdrop, takeFraction_of_ne hpoint], hrest⟩
  | pointed hwhole hfraction hne =>
    have hbehind : ('.' :: (fraction ++ power)).head?.any Char.isDigit = false := by simp
    obtain ⟨htake, hdrop⟩ := takeWhile_digits hwhole.isDigit hbehind
    obtain ⟨htake', hdrop'⟩ := takeWhile_digits hfraction.isDigit hstop
    rw [List.append_assoc, List.cons_append]
    exact ⟨htake, by rw [hdrop, takeFraction, htake', hdrop'], hrest⟩

/-- A decimal is taken as a whole. -/
theorem takeDecimal_of_isMantissa {sign : List Char} (hsign : IsSign sign negative)
    (hmantissa : IsMantissa mantissa whole fraction) (hpower : IsPower power exponent) :
    takeDecimal (sign ++ (mantissa ++ power)) =
      some (.ofDecimal negative (digitsValue 10 (whole ++ fraction))
        (exponent - fraction.length), []) := by
  obtain ⟨hunsigned, hwhole, hfraction, hrest⟩ := stages_of_isMantissa hsign hmantissa hpower
  have hsome : (whole.isEmpty && fraction.isEmpty) = false := by
    rw [← Bool.not_eq_true, Bool.and_eq_true, List.isEmpty_iff, List.isEmpty_iff,
      ← List.append_eq_nil_iff]
    exact hmantissa.ne_nil
  rw [takeDecimal_eq, hunsigned]
  simp only [hwhole, hfraction, hrest, hsome, Bool.false_eq_true, if_false]

/-! ## Marks of bases -/

variable {mark : Char}

theorem IsBaseMark.unique {base' : ℕ} (h : IsBaseMark mark base) (h' : IsBaseMark mark base') :
    base = base' := by
  cases h with
  | hexadecimal h => rcases h with rfl | rfl <;> cases h' <;> first | rfl | simp_all
  | octal h => rcases h with rfl | rfl <;> cases h' <;> first | rfl | simp_all
  | binary h => rcases h with rfl | rfl <;> cases h' <;> first | rfl | simp_all

/-- Of a numeral in another base only the zero in front of its mark is taken as a decimal. -/
theorem takeDecimal_of_isBaseMark (h : IsBaseMark mark base) (digits : List Char) :
    ∃ x, takeDecimal ('0' :: mark :: digits) = some (x, mark :: digits) := by
  have hmark : mark.isDigit = false ∧ ¬ (mark = 'e' ∨ mark = 'E') ∧ mark ≠ '.' := by
    cases h with
    | hexadecimal h => rcases h with rfl | rfl <;> decide
    | octal h => rcases h with rfl | rfl <;> decide
    | binary h => rcases h with rfl | rfl <;> decide
  obtain ⟨hdigit, hpower, hpoint⟩ := hmark
  have hzero : ∀ c ∈ ['0'], c.isDigit = true := List.forall_mem_singleton.mpr rfl
  have hstop : (mark :: digits).head?.any Char.isDigit = false := by simpa using hdigit
  obtain ⟨htake, hdrop⟩ := takeWhile_digits hzero hstop
  rw [List.singleton_append] at htake hdrop
  have hsign : takeSign ('0' :: mark :: digits) = (false, '0' :: mark :: digits) := rfl
  have hfraction : takeFraction (mark :: digits) = ([], mark :: digits) :=
    takeFraction_of_ne (by simpa using hpoint)
  refine ⟨.ofDecimal false (digitsValue 10 ['0']) 0, ?_⟩
  rw [takeDecimal_eq]
  simp [hsign, htake, hdrop, hfraction, takePower_of_ne hpower]

/-- A decimal is no numeral in another base. -/
theorem decimal_ne_based {sign : List Char} (hsign : IsSign sign negative)
    (hmantissa : IsMantissa mantissa whole fraction) (hpower : IsPower power exponent)
    (hmark : IsBaseMark mark base) : sign ++ (mantissa ++ power) ≠ '0' :: mark :: digits := by
  intro htext
  obtain ⟨x, htaken⟩ := takeDecimal_of_isBaseMark hmark digits
  rw [← htext, takeDecimal_of_isMantissa hsign hmantissa hpower] at htaken
  cases htaken

/-- A numeral denotes one number. -/
theorem Denotes.unique {q' : ℚ} (h : Denotes text q) (h' : Denotes text q') : q = q' := by
  cases h with
  | @decimal sign mantissa whole fraction power negative exponent hsign hmantissa hpower =>
    generalize htext : sign ++ (mantissa ++ power) = text at h'
    cases h' with
    | decimal hsign' hmantissa' hpower' =>
      obtain ⟨hunsigned, hwhole, hfraction, hrest⟩ := stages_of_isMantissa hsign hmantissa hpower
      obtain ⟨hunsigned', hwhole', hfraction', hrest'⟩ :=
        stages_of_isMantissa hsign' hmantissa' hpower'
      rw [htext, hunsigned', Prod.mk.injEq] at hunsigned
      obtain ⟨rfl, hbody⟩ := hunsigned
      rw [← hbody, hwhole'] at hwhole
      rw [← hbody, hfraction', Prod.mk.injEq] at hfraction
      obtain ⟨rfl, rfl⟩ := hfraction
      rw [hrest', Prod.mk.injEq] at hrest
      rw [hwhole, hrest.1]
    | based hmark hdigits hne =>
      exact absurd htext (decimal_ne_based hsign hmantissa hpower hmark)
  | @based mark base digits hmark hdigits hne =>
    generalize htext : '0' :: mark :: digits = text at h'
    cases h' with
    | decimal hsign hmantissa hpower =>
      exact absurd htext.symm (decimal_ne_based hsign hmantissa hpower hmark)
    | based hmark' hdigits' hne' =>
      rw [List.cons.injEq, List.cons.injEq] at htext
      obtain ⟨-, rfl, rfl⟩ := htext
      rw [hmark.unique hmark']

/-! ## Blanks around a numeral -/

theorem isBlank_of_isDigitOf {c : Char} (h : isDigitOf base c = true) : isBlank c = false := by
  have hrange : 48 ≤ c.toNat ∧ c.toNat ≤ 57 ∨ 97 ≤ c.toNat ∧ c.toNat ≤ 102 ∨
      65 ≤ c.toNat ∧ c.toNat ≤ 70 := by
    unfold isDigitOf digitValue? at h
    simp only [char_le_iff] at h
    split_ifs at h with hdecimal hlower hupper
    · exact .inl hdecimal
    · exact .inr (.inl hlower)
    · exact .inr (.inr hupper)
  rw [← Bool.not_eq_true]
  simp only [isBlank, Bool.or_eq_true, Bool.and_eq_true, decide_eq_true_eq, beq_iff_eq]
  omega

theorem AreDigits.isBlank (h : AreDigits base digits) : ∀ c ∈ digits, isBlank c = false :=
  fun c hc => isBlank_of_isDigitOf (h c hc)

theorem IsSign.isBlank {sign : List Char} (h : IsSign sign negative) :
    ∀ c ∈ sign, isBlank c = false := by
  cases h with
  | none => exact nofun
  | plus => exact List.forall_mem_singleton.mpr rfl
  | minus => exact List.forall_mem_singleton.mpr rfl

theorem IsMantissa.isBlank (h : IsMantissa mantissa whole fraction) :
    ∀ c ∈ mantissa, isBlank c = false := by
  cases h with
  | plain hwhole hne => exact hwhole.isBlank
  | pointed hwhole hfraction hne =>
    rw [List.forall_mem_append, List.forall_mem_cons]
    exact ⟨hwhole.isBlank, by decide, hfraction.isBlank⟩

theorem IsPower.isBlank (h : IsPower power exponent) : ∀ c ∈ power, isBlank c = false := by
  cases h with
  | none => exact nofun
  | written hmark hsign hdigits hne =>
    rw [List.forall_mem_cons, List.forall_mem_append]
    exact ⟨by rcases hmark with rfl | rfl <;> decide, hsign.isBlank, hdigits.isBlank⟩

/-- No character of a numeral is blank. -/
theorem Denotes.isBlank (h : Denotes text q) : ∀ c ∈ text, isBlank c = false := by
  cases h with
  | decimal hsign hmantissa hpower =>
    rw [List.forall_mem_append, List.forall_mem_append]
    exact ⟨hsign.isBlank, hmantissa.isBlank, hpower.isBlank⟩
  | based hmark hdigits hne =>
    rw [List.forall_mem_cons, List.forall_mem_cons]
    refine ⟨by decide, ?_, hdigits.isBlank⟩
    cases hmark with
    | hexadecimal h => rcases h with rfl | rfl <;> decide
    | octal h => rcases h with rfl | rfl <;> decide
    | binary h => rcases h with rfl | rfl <;> decide

theorem isNumeral_iff {text : String} : IsNumeral text q ↔ Denotes (trim text.toList) q := by
  constructor
  · rintro ⟨lead, numeral, trail, htext, hlead, htrail, hdenotes⟩
    rw [htext, trim_append hlead htrail hdenotes.isBlank]
    exact hdenotes
  · intro hdenotes
    obtain ⟨lead, trail, htext, hlead, htrail⟩ := exists_trim text.toList
    exact ⟨lead, _, trail, htext, hlead, htrail, hdenotes⟩

theorem IsNumeral.unique {text : String} {q' : ℚ} (h : IsNumeral text q)
    (h' : IsNumeral text q') : q = q' :=
  (isNumeral_iff.mp h).unique (isNumeral_iff.mp h')

/-! ## Digits of a numeral -/

theorem IsMantissa.exists_digit (h : IsMantissa mantissa whole fraction) :
    ∃ c ∈ mantissa, c.isDigit = true := by
  cases h with
  | plain hwhole hne =>
    obtain ⟨c, hc⟩ := List.exists_mem_of_ne_nil _ hne
    exact ⟨c, hc, hwhole.isDigit c hc⟩
  | pointed hwhole hfraction hne =>
    obtain ⟨c, hc⟩ := List.exists_mem_of_ne_nil _ hne
    rcases List.mem_append.mp hc with hc | hc
    · exact ⟨c, List.mem_append_left _ hc, hwhole.isDigit c hc⟩
    · exact ⟨c, List.mem_append_right _ (List.mem_cons_of_mem _ hc), hfraction.isDigit c hc⟩

/-- A numeral has a digit. -/
theorem IsNumeral.exists_digit {text : String} (h : IsNumeral text q) :
    ∃ c ∈ text.toList, c.isDigit = true := by
  obtain ⟨lead, numeral, trail, htext, -, -, hdenotes⟩ := h
  have hdigit : ∃ c ∈ numeral, c.isDigit = true := by
    cases hdenotes with
    | decimal hsign hmantissa hpower =>
      obtain ⟨c, hc, hdigit⟩ := hmantissa.exists_digit
      exact ⟨c, List.mem_append_right _ (List.mem_append_left _ hc), hdigit⟩
    | based hmark hdigits hne => exact ⟨'0', List.mem_cons_self, rfl⟩
  obtain ⟨c, hc, hdigit⟩ := hdigit
  exact ⟨c, htext ▸ List.mem_append_left _ (List.mem_append_right _ hc), hdigit⟩

/-! ## Reading -/

/-- A text that is taken as a decimal is not read as anything else. -/
theorem readNumeral_of_takeDecimal {text : String}
    (h : takeDecimal (trim text.toList) = some (x, [])) : readNumeral text = x := by
  have hmark : ∀ {mark : Char} {base : ℕ}, IsBaseMark mark base → ∀ digits,
      trim text.toList ≠ '0' :: mark :: digits := by
    intro mark base hmark digits heq
    obtain ⟨x', htaken⟩ := takeDecimal_of_isBaseMark hmark digits
    rw [heq, htaken] at h
    cases h
  have hinfinity : (takeSign (trim text.toList)).2 ≠ "Infinity".toList := by
    intro heq
    rw [takeDecimal_eq, heq] at h
    simp [isDigitOf_ten, takeFraction] at h
  unfold readNumeral
  dsimp only
  split
  · next hnil => rw [hnil] at h; cases h
  · next digits heq => exact absurd heq (hmark (.hexadecimal (.inl rfl)) digits)
  · next digits heq => exact absurd heq (hmark (.hexadecimal (.inr rfl)) digits)
  · next digits heq => exact absurd heq (hmark (.octal (.inl rfl)) digits)
  · next digits heq => exact absurd heq (hmark (.octal (.inr rfl)) digits)
  · next digits heq => exact absurd heq (hmark (.binary (.inl rfl)) digits)
  · next digits heq => exact absurd heq (hmark (.binary (.inr rfl)) digits)
  · rw [if_neg hinfinity, h]

/-- A numeral is read as the number nearest to what it denotes. -/
theorem readNumeral_isNearest {text : String} (h : IsNumeral text q) :
    (readNumeral text).IsNearest q := by
  have hdenotes := isNumeral_iff.mp h
  generalize htrim : trim text.toList = numeral at hdenotes
  cases hdenotes with
  | decimal hsign hmantissa hpower =>
    have htaken := takeDecimal_of_isMantissa hsign hmantissa hpower
    rw [← htrim] at htaken
    rw [readNumeral_of_takeDecimal htaken]
    exact ofDecimal_isNearest _ _ _
  | @based mark base digits hmark hdigits hne =>
    have hread : readNumeral text = .ofNat (digitsValue base digits) := by
      have hall : digits ≠ [] ∧ digits.all (isDigitOf base) = true :=
        ⟨hne, List.all_eq_true.mpr hdigits⟩
      unfold readNumeral
      rw [htrim]
      cases hmark with
      | hexadecimal hchar => rcases hchar with rfl | rfl <;> exact if_pos hall
      | octal hchar => rcases hchar with rfl | rfl <;> exact if_pos hall
      | binary hchar => rcases hchar with rfl | rfl <;> exact if_pos hall
    rw [hread]
    exact ofNat_isNearest _

theorem readNumeral_of_allBlank {text : String} (h : allBlank text.toList = true) :
    readNumeral text = .zero false := by
  unfold readNumeral
  rw [trim_eq_nil_iff.mpr h]

/-- A text that is read as a finite number is blank or a numeral. -/
theorem isNumeral_of_isFinite {text : String} (h : (readNumeral text).isFinite = true) :
    allBlank text.toList = true ∨ ∃ q, IsNumeral text q := by
  have hbased : ∀ {mark : Char} {base : ℕ} {digits : List Char},
      trim text.toList = '0' :: mark :: digits → IsBaseMark mark base →
      (if digits ≠ [] ∧ digits.all (isDigitOf base) then Binary64.ofNat (digitsValue base digits)
        else .nan).isFinite = true → ∃ q, IsNumeral text q := by
    intro mark base digits heq hmark hfinite
    split at hfinite
    · next hall =>
      have hdenotes := Denotes.based hmark (List.all_eq_true.mp hall.2) hall.1
      rw [← heq] at hdenotes
      exact ⟨_, isNumeral_iff.mpr hdenotes⟩
    · cases hfinite
  unfold readNumeral at h
  dsimp only at h
  split at h
  · next hnil => exact .inl (trim_eq_nil_iff.mp hnil)
  · next digits heq => exact .inr (hbased heq (.hexadecimal (.inl rfl)) h)
  · next digits heq => exact .inr (hbased heq (.hexadecimal (.inr rfl)) h)
  · next digits heq => exact .inr (hbased heq (.octal (.inl rfl)) h)
  · next digits heq => exact .inr (hbased heq (.octal (.inr rfl)) h)
  · next digits heq => exact .inr (hbased heq (.binary (.inl rfl)) h)
  · next digits heq => exact .inr (hbased heq (.binary (.inr rfl)) h)
  · split at h
    · cases h
    split at h
    · next x hread =>
      obtain ⟨sign, mantissa, power, negative, whole, fraction, exponent, hbody, hsign, hmantissa,
        hpower, -⟩ := takeDecimal_sound hread
      have hdenotes := Denotes.decimal hsign hmantissa hpower
      rw [List.append_nil] at hbody
      rw [← hbody] at hdenotes
      exact .inr ⟨_, isNumeral_iff.mpr hdenotes⟩
    · cases h

end GoldenRun.Number
