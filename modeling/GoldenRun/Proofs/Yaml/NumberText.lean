import GoldenRun.Proofs.Number
import GoldenRun.Yaml.Printer

/-!
# Numbers as plain scalars

* `plainValue_numberText`: the text of a number that has no fraction and is not negative means the
  number
-/

namespace GoldenRun.Yaml

open GoldenRun.Number Binary64

/-! ## Texts that begin with a digit -/

variable {text : List Char}

/-- A text that begins with a digit is no word that does not. -/
theorem not_contains_of_digit {words : List String} (h : text.head?.any Char.isDigit = true)
    (hwords : ∀ word ∈ words, word.toList.head?.any Char.isDigit = false) :
    words.contains (String.ofList text) = false := by
  rw [List.contains_eq_mem, decide_eq_false_iff_not]
  intro hmem
  have hnot := hwords _ hmem
  rw [String.toList_ofList, h] at hnot
  cases hnot

/-- A text that begins with a digit means a number if it is one. -/
theorem plainValue_of_digit {x : Binary64} (h : text.head?.any Char.isDigit = true)
    (hnumber : integerOf? (String.ofList text) = some x ∨
      integerOf? (String.ofList text) = none ∧ floatOf? (String.ofList text) = some x) :
    plainValue (String.ofList text) = .number x := by
  have hnull : isNullWord (String.ofList text) = false := not_contains_of_digit h (by decide)
  have hbool : boolOf? (String.ofList text) = none := by
    rw [boolOf?, if_neg (by rw [not_contains_of_digit h (by decide)]; decide),
      if_neg (by rw [not_contains_of_digit h (by decide)]; decide)]
  rw [plainValue, hnull, hbool]
  rcases hnumber with hnumber | ⟨hnone, hnumber⟩
  · simp [hnumber]
  · simp [hnone, hnumber]

/-- What a text of digits without a zero in front denotes in base ten. -/
theorem integerOf?_of_digit (h : text.head?.any Char.isDigit = true)
    (hzero : text.head? ≠ some '0') :
    integerOf? (String.ofList text) =
      if text.all Char.isDigit && (ofNat (digitsValue 10 text)).isFinite then
        some (ofNat (digitsValue 10 text)) else none := by
  have hne : text ≠ [] := by
    rintro rfl
    exact absurd h (by decide)
  have hten : isDigitOf 10 = Char.isDigit := funext isDigitOf_ten
  unfold integerOf?
  rw [String.toList_ofList, takeSign_of_isDigit h]
  dsimp only
  split
  · simp at hzero
  · simp at hzero
  · simp at hzero
  · simp at hzero
  · by_cases hall : text.all Char.isDigit = true
    · cases (ofNat (digitsValue 10 text)).isFinite <;> simp [hten, hne, hall]
    · simp [hten, hne, hall]

/-- What a text that begins with a digit denotes if it is a decimal. -/
theorem floatOf?_of_digit {x : Binary64} (h : text.head?.any Char.isDigit = true)
    (hdecimal : takeDecimal text = some (x, [])) (hfinite : x.isFinite = true) :
    floatOf? (String.ofList text) = some x := by
  unfold floatOf?
  rw [String.toList_ofList, takeSign_of_isDigit h]
  dsimp only
  rw [if_neg (by rw [not_contains_of_digit h (by decide)]; decide),
    if_neg (by rw [not_contains_of_digit h (by decide)]; decide)]
  have hhead : (text.head?.any fun c => c.isDigit || c = '.') = true := by
    cases text with
    | nil => cases h
    | cons c rest => simp_all
  simp [hhead, hdecimal, hfinite]

/-! ## The text of a number -/

variable {d : Decimal}

/-- A decimal that is a whole number of few digits is written with all its zeros. -/
theorem text_positional (hexponent : 0 ≤ d.exponent)
    (hfew : d.exponent + (Nat.toDigits 10 d.digits).length ≤ 21) :
    d.text.toList = Nat.toDigits 10 d.digits ++ List.replicate d.exponent.toNat '0' := by
  have hzeros : d.exponent + ((Nat.toDigits 10 d.digits).length : Int) -
      (Nat.toDigits 10 d.digits).length = d.exponent := by omega
  rw [Decimal.text]
  dsimp only
  rw [if_pos ⟨by omega, hfew⟩, hzeros, String.toList_ofList]

/-- A decimal that is a whole number of many digits is written with a power of ten. -/
theorem text_exponential {first : Char} {rest : List Char} (hexponent : 0 ≤ d.exponent)
    (hmany : 21 < d.exponent + (Nat.toDigits 10 d.digits).length)
    (hdigits : Nat.toDigits 10 d.digits = first :: rest) :
    d.text.toList = first :: ((if rest = [] then [] else '.' :: rest) ++
      'e' :: '+' :: Nat.toDigits 10 (d.exponent.toNat + rest.length)) := by
  have hlength : (Nat.toDigits 10 d.digits).length = rest.length + 1 := by rw [hdigits]; rfl
  have hpower : (d.exponent + ((rest.length + 1 : Nat) : Int) - 1).natAbs =
      d.exponent.toNat + rest.length := by omega
  rw [Decimal.text]
  dsimp only
  rw [hlength] at hmany ⊢
  rw [if_neg (by omega), if_neg (by omega), if_neg (by omega), hpower, if_neg (by omega), hdigits]
  cases rest with
  | nil => simp
  | cons c rest => simp

/-- The text of a decimal that has no fraction means its value. -/
theorem plainValue_text {x : Binary64} (hdigits : d.digits ≠ 0) (hlow : 0 ≤ d.exponent)
    (hhigh : d.exponent ≤ 400) (hvalue : ofDecimal false d.digits d.exponent = x)
    (hfinite : x.isFinite = true) : plainValue d.text = .number x := by
  have hisDigit : ∀ {n : Nat}, ∀ c ∈ Nat.toDigits 10 n, c.isDigit = true :=
    fun c mem => Nat.isDigit_of_mem_toDigits (by omega) (by omega) mem
  obtain ⟨first, rest, hcons⟩ := List.exists_cons_of_ne_nil
    (List.ne_nil_of_length_pos (Nat.length_toDigits_pos (b := 10) (n := d.digits)))
  have hdigit := hisDigit (n := d.digits)
  have hzero := head?_toDigits hdigits
  rw [hcons] at hdigit hzero
  obtain ⟨hfirst, hrest⟩ := List.forall_mem_cons.mp hdigit
  rw [← String.ofList_toList (s := d.text)]
  by_cases hfew : d.exponent + ((Nat.toDigits 10 d.digits).length : Int) ≤ 21
  · rw [text_positional hlow hfew]
    refine plainValue_of_digit (by simp [hcons, hfirst]) (.inl ?_)
    have hnumber : ofNat (digitsValue 10
        (Nat.toDigits 10 d.digits ++ List.replicate d.exponent.toNat '0')) = x := by
      rw [digitsValue_append, digitsValue_zeros, digitsValue_toDigits, List.length_replicate,
        Nat.add_zero, ofNat, ← ofDecimal_of_nonneg hdigits hlow hhigh, hvalue]
    have hall : (Nat.toDigits 10 d.digits ++ List.replicate d.exponent.toNat '0').all
        Char.isDigit = true := by
      rw [List.all_append, Bool.and_eq_true, List.all_eq_true, List.all_eq_true]
      refine ⟨hisDigit, fun c mem => ?_⟩
      rw [List.eq_of_mem_replicate mem]
      decide
    rw [integerOf?_of_digit (by simp [hcons, hfirst]) (by simpa [hcons] using hzero), hnumber, hall,
      hfinite]
    rfl
  · rw [text_exponential hlow (by omega) hcons]
    have hdecimal := takeDecimal_exponential hfirst hrest
      (hisDigit (n := d.exponent.toNat + rest.length))
      (List.ne_nil_of_length_pos Nat.length_toDigits_pos)
    have hpower : ((d.exponent.toNat + rest.length : Nat) : Int) - rest.length = d.exponent := by
      omega
    rw [digitsValue_toDigits, hpower, ← hcons, digitsValue_toDigits, hvalue] at hdecimal
    refine plainValue_of_digit (by simp [hfirst]) (.inr ⟨?_, ?_⟩)
    · rw [integerOf?_of_digit (by simp [hfirst]) (by simpa using hzero)]
      have hmark : ('e' : Char).isDigit = false := by decide
      simp [hmark]
    · exact floatOf?_of_digit (by simp [hfirst]) hdecimal hfinite

/-- The characters of a decimal that has no fraction, the first of which is a digit. -/
theorem mem_text (hexponent : 0 ≤ d.exponent) :
    (∀ c ∈ d.text.toList, c.isDigit = true ∨ c ∈ ['.', 'e', '+']) ∧
      d.text.toList.head?.any Char.isDigit = true := by
  have hisDigit : ∀ {n : Nat}, ∀ c ∈ Nat.toDigits 10 n, c.isDigit = true :=
    fun c mem => Nat.isDigit_of_mem_toDigits (by omega) (by omega) mem
  obtain ⟨first, rest, hcons⟩ := List.exists_cons_of_ne_nil
    (List.ne_nil_of_length_pos (Nat.length_toDigits_pos (b := 10) (n := d.digits)))
  have hdigit := hisDigit (n := d.digits)
  rw [hcons] at hdigit
  obtain ⟨hfirst, hrest⟩ := List.forall_mem_cons.mp hdigit
  by_cases hfew : d.exponent + ((Nat.toDigits 10 d.digits).length : Int) ≤ 21
  · rw [text_positional hexponent hfew]
    refine ⟨fun c hc => ?_, by simp [hcons, hfirst]⟩
    rcases List.mem_append.mp hc with hc | hc
    · exact .inl (hisDigit c hc)
    · rw [List.eq_of_mem_replicate hc]
      exact .inl (by decide)
  · rw [text_exponential hexponent (by omega) hcons]
    refine ⟨fun c hc => ?_, by simp [hfirst]⟩
    rcases List.mem_cons.mp hc with rfl | hc
    · exact .inl hfirst
    rcases List.mem_append.mp hc with hc | hc
    · split at hc
      · cases hc
      · rcases List.mem_cons.mp hc with rfl | hc
        · exact .inr (by decide)
        · exact .inl (hrest c hc)
    · rcases List.mem_cons.mp hc with rfl | hc
      · exact .inr (by decide)
      rcases List.mem_cons.mp hc with rfl | hc
      · exact .inr (by decide)
      · exact .inl (hisDigit c hc)

/-! ## Whole numbers that are not negative -/

/-- Such a number is a zero, or it is written as the shortest decimal that reads back as it. -/
theorem numberText_of_whole {x : Binary64} (hwhole : x.isWhole = true)
    (hsign : x.isNegative = false) : (∃ s, x = zero s) ∨
      ∃ d : Decimal, d.digits ≠ 0 ∧ 0 ≤ d.exponent ∧ d.exponent ≤ 400 ∧
        ofDecimal false d.digits d.exponent = x ∧ numberText x = d.text.toList := by
  cases x with
  | nan => cases hwhole
  | infinity negative => cases hwhole
  | finite s m e h =>
    by_cases hm : m = 0
    · subst hm
      obtain rfl : e = leastExponent := h.2.1.resolve_left (by decide)
      exact .inl ⟨s, rfl⟩
    · obtain rfl : s = false := by simpa [isNegative, hm] using hsign
      obtain ⟨n, hn⟩ := Option.isSome_iff_exists.mp hwhole
      obtain ⟨hdigits, hlow, hhigh, hvalue⟩ := ofDecimal_shortest hm hn
      refine .inr ⟨shortest m e h, hdigits, hlow, hhigh, hvalue, ?_⟩
      simp [numberText, isNegativeZero, hwhole, Binary64.text, hm]

theorem numberText_zero : numberText (zero false) = ['0'] := by
  have hpoint : lacksPoint ['0'] = false := by decide
  simp [numberText, isNegativeZero, Binary64.text, zero, hpoint]

theorem numberText_negativeZero : numberText (zero true) = ['-', '0', '.', '0'] := rfl

/-- The texts of the zeros mean the zeros; that of the one without a sign is a whole number. -/
theorem plainValue_zero (s : Bool) :
    plainValue (String.ofList (numberText (zero s))) = .number (zero s) := by
  cases s with
  | false =>
    rw [numberText_zero]
    exact plainValue_of_digit (by decide) (.inl (by decide +kernel))
  | true =>
    have hnull : isNullWord (String.ofList ['-', '0', '.', '0']) = false := by decide +kernel
    have hbool : boolOf? (String.ofList ['-', '0', '.', '0']) = none := by decide +kernel
    have hinteger : integerOf? (String.ofList ['-', '0', '.', '0']) = none := by decide +kernel
    have hfloat : floatOf? (String.ofList ['-', '0', '.', '0']) = some (zero true) := by
      decide +kernel
    rw [numberText_negativeZero, plainValue, hnull, hbool, hinteger, hfloat]
    rfl

/-- The text of a number that has no fraction and is not negative means the number. -/
theorem plainValue_numberText {x : Binary64} (hwhole : x.isWhole = true)
    (hsign : x.isNegative = false) : plainValue (String.ofList (numberText x)) = .number x := by
  have hfinite : x.isFinite = true := by
    cases x with
    | nan => cases hwhole
    | infinity negative => cases hwhole
    | finite => rfl
  rcases numberText_of_whole hwhole hsign with ⟨s, rfl⟩ | ⟨d, hdigits, hlow, hhigh, hvalue, htext⟩
  · exact plainValue_zero s
  · rw [htext, String.ofList_toList]
    exact plainValue_text hdigits hlow hhigh hvalue hfinite

end GoldenRun.Yaml
