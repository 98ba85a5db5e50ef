import GoldenRun.Number.Numeral
import GoldenRun.Number.Shortest
import Mathlib.Algebra.Order.Ring.Nat
import Mathlib.Data.List.Induction
import Mathlib.Tactic.Ring
import Mathlib.Tactic.SplitIfs

/-!
# Whole numbers and their texts

* `ofRatio_of_wholeMagnitude`: a number without a fraction is the number nearest to itself
* `ofDecimal_shortest`: the shortest decimal of such a number reads back as the number
* `digitsValue_toDigits`: the digits of a number read back as the number
-/

namespace GoldenRun.Number

namespace Binary64

/-! ## Rounding -/

theorem divideToEven_mul (n : Nat) {d : Nat} (hd : 0 < d) : divideToEven (n * d) d = n := by
  simp [divideToEven, Nat.mul_div_cancel n hd, hd]

theorem log2Ratio_one {n : Nat} (hn : n ≠ 0) : log2Ratio n 1 = n.log2 := by
  have hle : 2 ^ n.log2 ≤ n := Nat.log2_self_le hn
  have hone : Nat.log2 1 = 0 := by decide
  simpa [log2Ratio, atLeastPower, hone] using hle

/-- The logarithm of a number that is scaled by a power of two. -/
theorem log2_mul_pow {n : Nat} (hn : n ≠ 0) (k : Nat) : (n * 2 ^ k).log2 = n.log2 + k := by
  have hpos : 0 < n * 2 ^ k := Nat.mul_pos (Nat.pos_of_ne_zero hn) (Nat.two_pow_pos k)
  have hlow : 2 ^ n.log2 ≤ n := Nat.log2_self_le hn
  have hhigh : n < 2 ^ (n.log2 + 1) := Nat.lt_log2_self
  rw [Nat.log2_eq_iff (Nat.ne_of_gt hpos)]
  constructor
  · rw [Nat.pow_add]
    exact Nat.mul_le_mul_right _ hlow
  · rw [show n.log2 + k + 1 = n.log2 + 1 + k by omega, Nat.pow_add]
    exact Nat.mul_lt_mul_of_pos_right hhigh (Nat.two_pow_pos k)

/-- The logarithm of a mantissa that is not too small. -/
theorem log2_of_mantissa {m : Nat} (hlow : 2 ^ 52 ≤ m) (hhigh : m < 2 ^ 53) : m.log2 = 52 := by
  rw [Nat.log2_eq_iff (by omega)]
  exact ⟨hlow, hhigh⟩

variable {s : Bool} {m n : Nat} {e : Int} {h : IsNormal m e}

/-- A number has no fraction if its mantissa makes up for a negative exponent. -/
theorem wholeMagnitude?_eq_some_iff :
    (finite s m e h).wholeMagnitude? = some n ↔
      0 ≤ e ∧ n = m * 2 ^ e.toNat ∨ e < 0 ∧ m = n * 2 ^ (-e).toNat := by
  have hpos : 0 < 2 ^ (-e).toNat := Nat.two_pow_pos (-e).toNat
  simp only [wholeMagnitude?, Nat.pow_eq]
  split
  · next he => simp [he, Int.not_lt.mpr he, eq_comm]
  · next he =>
    simp only [he, false_and, false_or, Int.not_le.mp he, true_and]
    split
    · next hdivides =>
      rw [Option.some.injEq, eq_comm, Nat.eq_div_iff_mul_eq_left hpos.ne'
        (Nat.dvd_of_mod_eq_zero hdivides), eq_comm]
    · next hdivides =>
      simp only [reduceCtorEq, false_iff]
      rintro rfl
      exact hdivides (Nat.mul_mod_left n _)

theorem ne_zero_of_wholeMagnitude (hm : m ≠ 0)
    (hwhole : (finite s m e h).wholeMagnitude? = some n) : n ≠ 0 := by
  rcases wholeMagnitude?_eq_some_iff.mp hwhole with ⟨-, rfl⟩ | ⟨-, hmantissa⟩
  · exact Nat.mul_ne_zero hm (Nat.two_pow_pos e.toNat).ne'
  · exact fun hzero => hm (by rw [hmantissa, hzero, Nat.zero_mul])

/-- A number that is not zero and has no fraction has a mantissa that is not too small. -/
theorem mantissa_of_wholeMagnitude (hm : m ≠ 0)
    (hwhole : (finite s m e h).wholeMagnitude? = some n) : 2 ^ 52 ≤ m := by
  obtain ⟨hhigh, hlow, -, -⟩ := id h
  refine hlow.resolve_right fun hleast => ?_
  -- The least exponent is so small that only zero has no fraction.
  rcases wholeMagnitude?_eq_some_iff.mp hwhole with ⟨he, -⟩ | ⟨-, hmantissa⟩
  · rw [hleast] at he
    exact absurd he (by decide)
  · have hn : n ≠ 0 := ne_zero_of_wholeMagnitude hm hwhole
    have hexponent : (-e).toNat = 1074 := by rw [hleast]; decide
    have hge : 2 ^ (-e).toNat ≤ m :=
      hmantissa ▸ Nat.le_mul_of_pos_left _ (Nat.pos_of_ne_zero hn)
    have hpow : 2 ^ 53 ≤ 2 ^ (-e).toNat := Nat.pow_le_pow_right Nat.two_pos (by omega)
    exact absurd hhigh (Nat.not_lt.mpr (Nat.le_trans hpow hge))

/-- A number without a fraction is the number nearest to itself. -/
theorem ofRatio_of_wholeMagnitude (hm : m ≠ 0)
    (hwhole : (finite s m e h).wholeMagnitude? = some n) :
    ofRatio false n 1 = .finite false m e h := by
  have hlow : 2 ^ 52 ≤ m := mantissa_of_wholeMagnitude hm hwhole
  obtain ⟨hhigh, -, hleast, hgreatest⟩ := id h
  have hlog : m.log2 = 52 := log2_of_mantissa hlow hhigh
  have hn : n ≠ 0 := ne_zero_of_wholeMagnitude hm hwhole
  have hscaled : (n.log2 : Int) = 52 + e ∧ scaled n 1 e = m := by
    rcases wholeMagnitude?_eq_some_iff.mp hwhole with ⟨he, rfl⟩ | ⟨he, hmantissa⟩
    · constructor
      · rw [log2_mul_pow hm, hlog]
        omega
      · rw [scaled, if_pos he, Nat.one_mul]
        exact divideToEven_mul m (Nat.two_pow_pos e.toNat)
    · have hsum := log2_mul_pow hn (-e).toNat
      rw [← hmantissa, hlog] at hsum
      refine ⟨by omega, ?_⟩
      have hone := divideToEven_mul m Nat.one_pos
      rw [Nat.mul_one, hmantissa] at hone
      rw [scaled, if_neg (Int.not_le.mpr he)]
      exact hone.trans hmantissa.symm
  obtain ⟨hlog2, hscaled⟩ := hscaled
  have hexponent : max (log2Ratio n 1 - 52) leastExponent = e := by
    rw [log2Ratio_one hn, hlog2]
    omega
  have hcarry : m ≠ Nat.pow 2 53 := Nat.ne_of_lt hhigh
  rw [ofRatio, if_neg hn, if_neg Nat.one_ne_zero]
  simp only [hexponent, hscaled, if_neg hcarry, dif_pos h]

/-! ## The shortest decimal -/

/-- A decimal that is a whole number is read as that number. -/
theorem ofDecimal_of_nonneg {digits : Nat} {exponent : Int} (hdigits : digits ≠ 0)
    (hlow : 0 ≤ exponent) (hhigh : exponent ≤ 400) :
    ofDecimal false digits exponent = ofRatio false (digits * 10 ^ exponent.toNat) 1 := by
  have hnot : ¬ exponent + ((Nat.log2 digits : Nat) : Int) / 3 + 1 < -400 := by omega
  rw [ofDecimal, if_neg hdigits, if_neg (Int.not_lt.mpr hhigh), if_neg hnot, if_pos hlow]
  rfl

/-- What is near to a finite number is not too great. -/
theorem log2_le_of_ofRatio (hn : n ≠ 0)
    (hfinite : ofRatio false n 1 = finite s m e h) : n.log2 ≤ 1023 := by
  rw [ofRatio, if_neg hn, if_neg Nat.one_ne_zero, log2Ratio_one hn] at hfinite
  dsimp only at hfinite
  split at hfinite
  · split at hfinite
    · next hnormal =>
      have hgreatest : max ((n.log2 : Int) - 52) leastExponent + 1 ≤ 971 := hnormal.2.2.2
      omega
    · cases hfinite
  · split at hfinite
    · next hnormal =>
      have hgreatest : max ((n.log2 : Int) - 52) leastExponent ≤ 971 := hnormal.2.2.2
      omega
    · cases hfinite

theorem decimalPoint_pos {num den : Nat} (hden : den ≠ 0) (hle : den ≤ num) :
    0 < decimalPoint num den := by
  have hlog : den.log2 ≤ num.log2 :=
    (Nat.le_log2 (by omega)).mpr (Nat.le_trans (Nat.log2_self_le hden) hle)
  unfold decimalPoint
  dsimp only
  generalize hguess : ((num.log2 : Int) - den.log2) * 30103 / 100000 - 2 = guess
  have hguess' : -2 ≤ guess := by omega
  cases hfind : (List.range 6).find? _ with
  | none =>
    rw [Option.getD_none]
    omega
  | some i =>
    have hreaches := List.find?_some hfind
    rw [Option.getD_some]
    by_contra hnot
    have hpower : den ≤ num * 10 ^ (-(guess + i)).toNat :=
      Nat.le_trans hle (Nat.le_mul_of_pos_right _ (Nat.pow_pos (by omega)))
    by_cases hzero : guess + i = 0
    · simp [hzero, hle] at hreaches
    · have hneg : ¬ 0 ≤ guess + i := by omega
      rw [if_neg hneg] at hreaches
      simp only [Nat.pow_eq, hpower, decide_true, Bool.not_true, Bool.false_eq_true] at hreaches

/-- The value of a number without a fraction as a quotient. -/
theorem quotient_of_wholeMagnitude (hwhole : (finite s m e h).wholeMagnitude? = some n) :
    ∃ den, den ≠ 0 ∧ quotient m e = (n * den, den) := by
  rcases wholeMagnitude?_eq_some_iff.mp hwhole with ⟨he, rfl⟩ | ⟨he, rfl⟩
  · exact ⟨1, by decide, by rw [quotient, if_pos he, Nat.mul_one]; rfl⟩
  · exact ⟨_, (Nat.two_pow_pos (-e).toNat).ne', by rw [quotient, if_neg (Int.not_le.mpr he)]; rfl⟩

/-- A decimal that is found on a grid reads back as the number. -/
theorem ofDecimal_of_onGrid {x : Binary64} {num den count : Nat} {point : Int} {d : Decimal}
    (hfound : onGrid? x num den point count = some d) :
    ofDecimal false d.digits d.exponent = x ∧ d.exponent = point - count := by
  obtain ⟨digits, hdigits, rfl⟩ := Option.map_eq_some_iff.mp hfound
  exact ⟨by simpa using List.find?_some hdigits, rfl⟩

/-- A whole number is found on the grid of the whole numbers. -/
theorem onGrid?_of_whole {x : Binary64} {den count : Nat} {point : Int} (hden : den ≠ 0)
    (hpoint : point = count) (hback : ofDecimal false n 0 = x) :
    onGrid? x (n * den) den point count = some ⟨n, 0⟩ := by
  have hgrid : point - count = 0 := by omega
  have hdiv : n * den / den = n := Nat.mul_div_cancel n (Nat.pos_of_ne_zero hden)
  simp [onGrid?, hgrid, gridBelow, hdiv, hback]

/-- Zeros at the end go over into the power of ten. -/
theorem Decimal.strip_spec (d : Decimal) :
    ∃ zeros : Nat, d.digits = d.strip.digits * 10 ^ zeros ∧
      d.strip.exponent = d.exponent + zeros := by
  have hgo : ∀ (fuel digits : Nat) (exponent : Int), ∃ zeros : Nat,
      digits = (strip.go fuel digits exponent).digits * 10 ^ zeros ∧
        (strip.go fuel digits exponent).exponent = exponent + zeros := by
    intro fuel
    induction fuel with
    | zero => exact fun digits exponent => ⟨0, by simp [strip.go]⟩
    | succ fuel ih =>
      intro digits exponent
      rw [strip.go]
      split
      · next hzero =>
        obtain ⟨zeros, hdigits, hexponent⟩ := ih (digits / 10) (exponent + 1)
        have hten : digits = digits / 10 * 10 := by
          simp only [bne_iff_ne, ne_eq, beq_iff_eq, Bool.and_eq_true] at hzero
          omega
        refine ⟨zeros + 1, ?_, by rw [hexponent]; push_cast; ring⟩
        rw [Nat.pow_succ, ← Nat.mul_assoc, ← hdigits]
        exact hten
      · exact ⟨0, by simp⟩
  exact hgo 20 d.digits d.exponent

/-- A decimal that reads back as a number is not too large. -/
theorem exponent_le_of_ofDecimal {d : Decimal} (hdigits : d.digits ≠ 0)
    (hback : ofDecimal false d.digits d.exponent = finite s m e h) : d.exponent ≤ 400 := by
  by_contra hnot
  rw [ofDecimal, if_neg hdigits, if_pos (Int.not_le.mp hnot)] at hback
  cases hback

/-- Without the zeros at its end a decimal still reads back as the number. -/
theorem ofDecimal_strip {d : Decimal} (hdigits : d.digits ≠ 0) (hnonneg : 0 ≤ d.exponent)
    (hback : ofDecimal false d.digits d.exponent = finite false m e h) :
    d.strip.digits ≠ 0 ∧ 0 ≤ d.strip.exponent ∧ d.strip.exponent ≤ 400 ∧
      ofDecimal false d.strip.digits d.strip.exponent = finite false m e h := by
  obtain ⟨zeros, hzeros, hexponent⟩ := d.strip_spec
  have hstripped : d.strip.digits ≠ 0 := fun hzero => hdigits (by rw [hzeros, hzero, Nat.zero_mul])
  have hvalue : d.digits * 10 ^ d.exponent.toNat =
      d.strip.digits * 10 ^ d.strip.exponent.toNat := by
    have hsum : d.strip.exponent.toNat = zeros + d.exponent.toNat := by omega
    rw [hsum, Nat.pow_add, ← Nat.mul_assoc, ← hzeros]
  have hlimit := exponent_le_of_ofDecimal hdigits hback
  rw [ofDecimal_of_nonneg hdigits hnonneg hlimit, hvalue] at hback
  -- The value did not grow, so the exponent is still within the limit.
  have hsmall : d.strip.exponent ≤ 400 := by
    have hne : d.strip.digits * 10 ^ d.strip.exponent.toNat ≠ 0 :=
      Nat.mul_ne_zero hstripped (Nat.pow_pos (by omega)).ne'
    have hpower : 2 ^ (3 * d.strip.exponent.toNat) ≤
        d.strip.digits * 10 ^ d.strip.exponent.toNat := by
      rw [Nat.pow_mul]
      exact Nat.le_trans (Nat.pow_le_pow_left (by omega) _)
        (Nat.le_mul_of_pos_left _ (Nat.pos_of_ne_zero hstripped))
    have hlog := log2_le_of_ofRatio hne hback
    have hthree := (Nat.le_log2 hne).mpr hpower
    omega
  exact ⟨hstripped, by omega, hsmall,
    by rw [ofDecimal_of_nonneg hstripped (by omega) hsmall, hback]⟩

/-- A search through the first numbers ends at the least one that has a result. -/
theorem findSome?_range_eq_some {α : Type} {f : Nat → Option α} {a : α} {k : Nat}
    (h : (List.range k).findSome? f = some a) : ∃ i, f i = some a ∧ ∀ j < i, f j = none := by
  induction k with
  | zero => cases h
  | succ k ih =>
    rw [List.range_succ, List.findSome?_append, Option.or_eq_some_iff] at h
    rcases h with h | ⟨hnone, h⟩
    · exact ih h
    · rw [List.findSome?_eq_none_iff] at hnone
      exact ⟨k, by simpa using h, fun j hj => hnone j (List.mem_range.mpr hj)⟩

/-- The search for the shortest decimal meets the grid of the whole numbers before it goes on to
fractions. -/
theorem shortest_eq_strip (hn : n ≠ 0) (hwhole : (finite s m e h).wholeMagnitude? = some n)
    (hexact : ofDecimal false n 0 = finite false m e h) :
    ∃ d : Decimal, shortest m e h = d.strip ∧ 0 ≤ d.exponent ∧
      ofDecimal false d.digits d.exponent = finite false m e h := by
  obtain ⟨den, hden, hquotient⟩ := quotient_of_wholeMagnitude hwhole
  have hpoint : 0 < decimalPoint (n * den) den :=
    decimalPoint_pos hden (Nat.le_mul_of_pos_left den (Nat.pos_of_ne_zero hn))
  rw [shortest, hquotient]
  dsimp only
  cases hsearch : (List.range 17).findSome? _ with
  | none =>
    have hdiv : n * den / den = n := Nat.mul_div_cancel n (Nat.pos_of_ne_zero hden)
    exact ⟨_, rfl, by simp, by simpa [hdiv] using hexact⟩
  | some d =>
    obtain ⟨i, hd, hbefore⟩ := findSome?_range_eq_some hsearch
    obtain ⟨hback, hexponent⟩ := ofDecimal_of_onGrid hd
    refine ⟨d, rfl, ?_, hback⟩
    by_contra hneg
    have hnone := hbefore ((decimalPoint (n * den) den).toNat - 1) (by omega)
    rw [onGrid?_of_whole hden (by omega) hexact] at hnone
    cases hnone

/-- The shortest decimal of a number that is not zero and has no fraction reads back as the number,
and it has no fraction either. -/
theorem ofDecimal_shortest (hm : m ≠ 0) (hwhole : (finite s m e h).wholeMagnitude? = some n) :
    (shortest m e h).digits ≠ 0 ∧ 0 ≤ (shortest m e h).exponent ∧
      (shortest m e h).exponent ≤ 400 ∧
      ofDecimal false (shortest m e h).digits (shortest m e h).exponent = finite false m e h := by
  have hn : n ≠ 0 := ne_zero_of_wholeMagnitude hm hwhole
  have hexact : ofDecimal false n 0 = finite false m e h := by
    rw [ofDecimal_of_nonneg hn (by omega) (by omega)]
    simpa using ofRatio_of_wholeMagnitude hm hwhole
  obtain ⟨d, hstrip, hnonneg, hback⟩ := shortest_eq_strip hn hwhole hexact
  have hdigits : d.digits ≠ 0 := by
    intro hzero
    rw [hzero, ofDecimal, if_pos rfl] at hback
    exact hm (by cases hback; rfl)
  rw [hstrip]
  exact ofDecimal_strip hdigits hnonneg hback

end Binary64

/-! ## Digits -/

theorem char_le_iff {c d : Char} : c ≤ d ↔ c.toNat ≤ d.toNat := UInt32.le_iff_toNat_le

theorem digitValue?_of_isDigit {c : Char} (h : c.isDigit = true) :
    digitValue? c = some (c.toNat - '0'.toNat) := by
  obtain ⟨hlow, hhigh⟩ := Char.isDigit_iff_toNat.mp h
  rw [digitValue?, if_pos ⟨char_le_iff.mpr hlow, char_le_iff.mpr hhigh⟩]

theorem isDigitOf_ten (c : Char) : isDigitOf 10 c = c.isDigit := by
  unfold isDigitOf
  cases h : c.isDigit with
  | true =>
    have hhigh : c.toNat ≤ 57 := (Char.isDigit_iff_toNat.mp h).2
    have hzero : '0'.toNat = 48 := rfl
    rw [digitValue?_of_isDigit h]
    simp only [decide_eq_true_eq]
    omega
  | false =>
    have hnot : ¬ ('0' ≤ c ∧ c ≤ '9') := by
      intro hrange
      have hdigit := Char.isDigit_iff_toNat.mpr
        ⟨char_le_iff.mp hrange.1, char_le_iff.mp hrange.2⟩
      rw [h] at hdigit
      cases hdigit
    rw [digitValue?, if_neg hnot]
    split_ifs <;> simp

theorem digitsValue_append (base : Nat) (digits more : List Char) :
    digitsValue base (digits ++ more) =
      digitsValue base digits * base ^ more.length + digitsValue base more := by
  have hfrom : ∀ n, more.foldl (fun n c => n * base + (digitValue? c).getD 0) n =
      n * base ^ more.length + digitsValue base more := by
    unfold digitsValue
    induction more using List.reverseRecOn with
    | nil => simp
    | append_singleton more c ih =>
      intro n
      simp only [List.foldl_append, List.foldl_cons, List.foldl_nil, List.length_append,
        List.length_singleton, pow_succ]
      rw [ih n]
      ring
  rw [digitsValue, List.foldl_append]
  exact hfrom _

/-- The digits of a number read back as the number. -/
theorem digitsValue_toDigits (n : Nat) : digitsValue 10 (Nat.toDigits 10 n) = n := by
  have hdigits : ∀ (digits : List Char) (value : Nat), (∀ c ∈ digits, c.isDigit = true) →
      digits.foldl (fun n c => n * 10 + (digitValue? c).getD 0) value =
        Nat.ofDigitChars 10 digits value := by
    intro digits
    induction digits with
    | nil => exact fun value _ => rfl
    | cons c digits ih =>
      intro value h
      rw [List.forall_mem_cons] at h
      rw [List.foldl_cons, ih _ h.2, Nat.ofDigitChars_cons, digitValue?_of_isDigit h.1,
        Option.getD_some, Nat.mul_comm]
  rw [digitsValue, hdigits _ _ fun c mem => Nat.isDigit_of_mem_toDigits (by omega) (by omega) mem,
    Nat.ofDigitChars_toDigits (by omega) (by omega)]

theorem digitsValue_zeros (count : Nat) : digitsValue 10 (List.replicate count '0') = 0 := by
  induction count with
  | zero => rfl
  | succ count ih =>
    rw [List.replicate_succ', digitsValue_append, ih]
    decide

/-- A number that is not zero is written without zeros in front. -/
theorem head?_toDigits {n : Nat} (hn : n ≠ 0) : (Nat.toDigits 10 n).head? ≠ some '0' := by
  induction n using Nat.strongRecOn with
  | ind n ih =>
    rw [Nat.toDigits_eq_if (by omega)]
    split
    · next hsmall =>
      rw [List.head?_cons, ne_eq, Option.some.injEq]
      intro hzero
      have hback := digitsValue_toDigits n
      rw [Nat.toDigits_of_lt_base hsmall, hzero] at hback
      exact hn (by rw [← hback]; decide)
    · next hlarge =>
      have hne : Nat.toDigits 10 (n / 10) ≠ [] := List.ne_nil_of_length_pos Nat.length_toDigits_pos
      obtain ⟨first, more, hcons⟩ := List.exists_cons_of_ne_nil hne
      have hfirst := ih (n / 10) (by omega) (by omega)
      rw [hcons] at hfirst ⊢
      exact hfirst

/-- Digits up to something else are taken as a whole. -/
theorem takeWhile_digits {digits rest : List Char} (h : ∀ c ∈ digits, c.isDigit = true)
    (hstop : rest.head?.any Char.isDigit = false) :
    (digits ++ rest).takeWhile (isDigitOf 10) = digits ∧
      (digits ++ rest).dropWhile (isDigitOf 10) = rest := by
  have hten : isDigitOf 10 = Char.isDigit := funext isDigitOf_ten
  rw [hten, List.takeWhile_append_of_pos h, List.dropWhile_append_of_pos h]
  cases rest with
  | nil => simp
  | cons c rest =>
    have hc : c.isDigit = false := by simpa using hstop
    simp [hc]

/-- A digit is no sign. -/
theorem takeSign_of_isDigit {text : List Char} (h : text.head?.any Char.isDigit = true) :
    takeSign text = (false, text) := by
  unfold takeSign
  split
  · simp at h
  · simp at h
  · rfl

/-- A decimal with one digit before its point and with a power of ten, read. -/
theorem takeDecimal_exponential {first : Char} {rest power : List Char}
    (hfirst : first.isDigit = true) (hrest : ∀ c ∈ rest, c.isDigit = true)
    (hpower : ∀ c ∈ power, c.isDigit = true) (hne : power ≠ []) :
    takeDecimal (first :: ((if rest = [] then [] else '.' :: rest) ++ 'e' :: '+' :: power)) =
      some (.ofDecimal false (digitsValue 10 (first :: rest))
        ((digitsValue 10 power : Int) - rest.length), []) := by
  have hmark : ('e' :: '+' :: power).head?.any Char.isDigit = false := by simp
  have hsign : takeSign ('+' :: power) = (false, power) := rfl
  obtain ⟨hpowers, hnothing⟩ :
      power.takeWhile (isDigitOf 10) = power ∧ power.dropWhile (isDigitOf 10) = [] := by
    have hstop : ([] : List Char).head?.any Char.isDigit = false := rfl
    simpa only [List.append_nil] using takeWhile_digits hpower hstop
  unfold takeDecimal
  rw [takeSign_of_isDigit (by simpa using hfirst)]
  by_cases hempty : rest = []
  · subst hempty
    obtain ⟨hwhole, hbehind⟩ :=
      takeWhile_digits (List.forall_mem_singleton.mpr hfirst) hmark
    rw [List.singleton_append] at hwhole hbehind
    simp [hwhole, hbehind, hsign, hpowers, hnothing, hne]
  · have hpoint : ('.' :: (rest ++ 'e' :: '+' :: power)).head?.any Char.isDigit = false := by simp
    obtain ⟨hwhole, hbehind⟩ :=
      takeWhile_digits (List.forall_mem_singleton.mpr hfirst) hpoint
    obtain ⟨hfraction, hexponent⟩ := takeWhile_digits hrest hmark
    rw [List.singleton_append] at hwhole hbehind
    simp [hempty, hwhole, hbehind, hfraction, hexponent, hsign, hpowers, hnothing, hne]

end GoldenRun.Number
