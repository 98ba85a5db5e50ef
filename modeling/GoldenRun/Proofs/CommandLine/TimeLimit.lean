import GoldenRun.CommandLine.Arguments
import GoldenRun.Proofs.Number.Numeral

/-!
# Time limits on the command line

The flag for the time limit takes numerals.  What it takes is rounded first and looked at then: it
is the nearest number that must be a natural number, and not the one that was written.  A text of
blanks is no numeral, but is taken for zero, which is no limit.

* `milliseconds?_eq_some_iff`: a text is taken if it is read as a natural number
* `isNumeral_of_milliseconds?`: only blanks and numerals are taken
* `give_timeoutFlag`: whatever is not taken is a fault
* `timeout_taken_iff`: which texts are taken, and what for
-/

namespace GoldenRun.CommandLine

open GoldenRun.Number GoldenRun.Text Binary64

variable {text : String} {x : Binary64} {q : ℚ}

/-- A number below zero is no zero. -/
theorem isNegative_and_not_isZero (x : Binary64) : (x.isNegative && !x.isZero) = x.isNegative := by
  cases x with
  | nan => rfl
  | infinity s => cases s <;> rfl
  | finite s m e h =>
    by_cases hm : m = 0 <;> simp [isNegative, isZero, hm]

/-- A text is taken for a time if it is read as a natural number. -/
theorem milliseconds?_eq_some_iff :
    milliseconds? text = some x ↔ x = readNumeral text ∧ ∃ n : ℕ, x.toRat? = some (n : ℚ) := by
  have hnatural : ((readNumeral text).isWhole &&
      !((readNumeral text).isNegative && !(readNumeral text).isZero)) = true ↔
        ∃ n : ℕ, (readNumeral text).toRat? = some (n : ℚ) := by
    rw [isNegative_and_not_isZero, Bool.and_eq_true, Bool.not_eq_true', natural_iff]
  unfold milliseconds?
  dsimp only
  split
  · next hread =>
    rw [Option.some.injEq, eq_comm, iff_self_and]
    rintro rfl
    exact hnatural.mp hread
  · next hnot =>
    refine iff_of_false nofun ?_
    rintro ⟨rfl, hread⟩
    exact hnot (hnatural.mpr hread)

theorem isFinite_of_toRat? {v : ℚ} (h : x.toRat? = some v) : x.isFinite = true := by
  cases x with
  | nan => cases h
  | infinity s => cases h
  | finite s m e normal => rfl

/-- Only blanks and numerals are taken. -/
theorem isNumeral_of_milliseconds? (h : milliseconds? text = some x) :
    allBlank text.toList = true ∨ ∃ q, IsNumeral text q := by
  obtain ⟨rfl, n, hn⟩ := milliseconds?_eq_some_iff.mp h
  exact isNumeral_of_isFinite (isFinite_of_toRat? hn)

theorem eq_none_of_not_isNumeral (hblank : allBlank text.toList = false)
    (hnot : ∀ q, ¬ IsNumeral text q) : milliseconds? text = none := by
  rw [Option.eq_none_iff_forall_ne_some]
  intro x hx
  rcases isNumeral_of_milliseconds? hx with hall | ⟨q, hq⟩
  · rw [hblank] at hall
    cases hall
  · exact hnot q hq

/-- A text for the flag is taken, or it is a fault that names the flag and the text. -/
theorem give_timeoutFlag (a : Arguments) (text : String) :
    a.give timeoutFlag text =
      if (milliseconds? text).isSome then .ok { a with given := a.given ++ [(timeoutFlag, text)] }
      else .error (.fault (.badValue timeoutFlag text
        "Expected a non-negative integer (milliseconds).")) := by
  have hversion : timeoutFlag ≠ versionFlag := by decide
  have hrule : timeoutFlag.rule = .milliseconds := rfl
  rw [Arguments.give, if_neg hversion, hrule, Rule.objection?]
  split_ifs <;> rfl

/--
**Blanks, and the numerals that are nearest to a natural number, are taken as time limits.**

* A text of blanks is taken for zero.
* A numeral is taken exactly if the number nearest to what it denotes is a natural number, and it is
  taken for that number.  So every natural number is taken that is not too large for a number, and
  it is taken for itself if it is no greater than `2^53`.
* Any other text is a fault, and so is any text without a digit that does not consist of blanks.
-/
theorem timeout_taken_iff (text : String) :
    (allBlank text.toList = true → milliseconds? text = some (.zero false)) ∧
    (∀ q, IsNumeral text q → ∃ x : Binary64, x.IsNearest q ∧
      (∀ y, milliseconds? text = some y ↔ y = x ∧ ∃ n : ℕ, x.toRat? = some (n : ℚ)) ∧
      ∀ n : ℕ, q = n → (q < overflow → milliseconds? text = some x) ∧
        (n ≤ 2 ^ 53 → x.toRat? = some (n : ℚ))) ∧
    (allBlank text.toList = false → (∀ q, ¬ IsNumeral text q) → milliseconds? text = none) ∧
    (allBlank text.toList = false → (∀ c ∈ text.toList, c.isDigit = false) →
      milliseconds? text = none) ∧
    ∀ a : Arguments, a.give timeoutFlag text =
      if (milliseconds? text).isSome then .ok { a with given := a.given ++ [(timeoutFlag, text)] }
      else .error (.fault (.badValue timeoutFlag text
        "Expected a non-negative integer (milliseconds).")) := by
  refine ⟨fun hblank => ?_, fun q hq => ?_, fun hblank hnot => ?_, fun hblank hdigits => ?_,
    fun a => give_timeoutFlag a text⟩
  · rw [milliseconds?_eq_some_iff, readNumeral_of_allBlank hblank]
    exact ⟨rfl, 0, by simp [Binary64.zero, toRat?]⟩
  · have hnear := readNumeral_isNearest hq
    refine ⟨readNumeral text, hnear, fun y => ?_, ?_⟩
    · rw [milliseconds?_eq_some_iff]
      exact and_congr_right fun hy => by rw [hy]
    · rintro n rfl
      exact ⟨fun hsmall => milliseconds?_eq_some_iff.mpr ⟨rfl, hnear.natural hsmall⟩,
        hnear.eq_natCast⟩
  · exact eq_none_of_not_isNumeral hblank hnot
  · refine eq_none_of_not_isNumeral hblank fun q hq => ?_
    obtain ⟨c, hc, hdigit⟩ := hq.exists_digit
    rw [hdigits c hc] at hdigit
    cases hdigit

theorem isNumeral_thousand : IsNumeral " 1e3 " 1000 := by
  have hmantissa : IsMantissa ['1'] ['1'] [] := .plain (by decide) (by decide)
  have hthree : AreDigits 10 ['3'] := by decide
  have hpower : IsPower ['e', '3'] (digitsValue 10 ['3']) :=
    .written (.inl rfl) .none hthree (by decide)
  have hdenotes := Denotes.decimal .none hmantissa hpower
  have hvalue : digitsValue 10 ['1'] = 1 ∧ digitsValue 10 ['3'] = 3 := by decide
  refine ⟨[' '], ['1', 'e', '3'], [' '], rfl, rfl, rfl, ?_⟩
  norm_num [hvalue] at hdenotes
  exact hdenotes

/-- A thousand milliseconds may be written as a power; a word is no time. -/
theorem timeout_taken_iff_thousand :
    (∃ x, milliseconds? " 1e3 " = some x ∧ x.toRat? = some 1000) ∧
      milliseconds? "soon" = none ∧ milliseconds? "\t " = some (.zero false) := by
  obtain ⟨-, hnumerals, -⟩ := timeout_taken_iff " 1e3 "
  obtain ⟨-, -, -, hword, -⟩ := timeout_taken_iff "soon"
  obtain ⟨hblank, -⟩ := timeout_taken_iff "\t "
  obtain ⟨x, -, -, hnatural⟩ := hnumerals 1000 isNumeral_thousand
  obtain ⟨htaken, hvalue⟩ := hnatural 1000 (by norm_num)
  have hletters : ∀ c ∈ "soon".toList, c.isDigit = false := by simp
  refine ⟨⟨x, htaken ?_, by simpa using hvalue (by norm_num)⟩, hword rfl hletters, hblank rfl⟩
  exact lt_of_lt_of_le (by norm_num) (le_overflow (f := 0) (by decide))

theorem isNumeral_fraction : ∃ q < 1, IsNumeral "0.99999999999999999999" q := by
  have hwhole : AreDigits 10 ['0'] := by decide
  have hfraction : AreDigits 10 (List.replicate 20 '9') := by decide
  have hdenotes := Denotes.decimal .none (.pointed hwhole hfraction (by decide)) .none
  have hvalue : digitsValue 10 (['0'] ++ List.replicate 20 '9') = 10 ^ 20 - 1 := by decide +kernel
  refine ⟨_, ?_, [], _, [], rfl, rfl, rfl, hdenotes⟩
  rw [hvalue]
  norm_num

/-- **No time at all is taken for zero, and a fraction for one.** -/
theorem empty_text_and_fraction_are_taken :
    (milliseconds? "" = some (.zero false) ∧ ∀ q, ¬ IsNumeral "" q) ∧
      milliseconds? "0.99999999999999999999" = some (.ofNat 1) ∧
      ∃ q < 1, IsNumeral "0.99999999999999999999" q := by
  refine ⟨⟨by decide +kernel, fun q hq => ?_⟩, by decide +kernel, isNumeral_fraction⟩
  obtain ⟨c, hc, -⟩ := hq.exists_digit
  cases hc

end GoldenRun.CommandLine
