import GoldenRun.Proofs.Number.Nearest
import Mathlib.Tactic.NormNum

/-!
# Rounding

Quotients and decimals are rounded to the nearest number.  Rounding goes by a grid: the multiples of
a power of two that leaves 53 bits of the quotient.  The rounded mantissa is the whole number
nearest to the quotient in this unit (`IsNearestWhole`), and a number that is not on the grid is
below all that could be rounded on it.

* `scaled_isNearestWhole`: the rounded mantissa
* `log2Ratio_spec`: the power of two below a quotient
* `IsNearestWhole.nearest`: no number is nearer than the best one on the grid
* `ofRatio_isNearest`, `ofDecimal_isNearest`: quotients and decimals are rounded to the nearest
-/

namespace GoldenRun.Number.Binary64

variable {num den m n : ℕ} {e : ℤ} {q r : ℚ} {x y : Binary64}

/-! ## The nearest whole number -/

/-- `IsNearestWhole r m`: no whole number is nearer to `r` than `m`, and none is equally near unless
`m` is even. -/
def IsNearestWhole (r : ℚ) (m : ℕ) : Prop :=
  ∀ j : ℤ, j ≠ m → |(m : ℚ) - r| < |j - r| ∨ |(m : ℚ) - r| = |j - r| ∧ m % 2 = 0

theorem IsNearestWhole.of_half (hhalf : |(m : ℚ) - r| ≤ 1 / 2)
    (htie : |(m : ℚ) - r| = 1 / 2 → m % 2 = 0) : IsNearestWhole r m := by
  intro j hj
  have hone : (1 : ℚ) ≤ |(j : ℚ) - m| := by
    have hint : (1 : ℤ) ≤ |j - m| := Int.one_le_abs (sub_ne_zero.mpr hj)
    exact_mod_cast hint
  have htriangle : |(j : ℚ) - m| ≤ |(j : ℚ) - r| + |(m : ℚ) - r| := by
    rw [abs_sub_comm (m : ℚ) r]
    exact abs_sub_le (j : ℚ) r m
  rcases hhalf.lt_or_eq with hlt | heq
  · exact .inl (by linarith)
  · rcases (show |(m : ℚ) - r| ≤ |(j : ℚ) - r| by linarith).lt_or_eq with hlt | htied
    · exact .inl hlt
    · exact .inr ⟨htied, htie heq⟩

namespace IsNearestWhole

variable {f : ℚ}

theorem floor (n : ℕ) (hf : 0 ≤ f) (hlow : f < 1 / 2) : IsNearestWhole (n + f) n := by
  have habs : |(n : ℚ) - (n + f)| = f := by rw [sub_add_cancel_left, abs_neg, abs_of_nonneg hf]
  refine .of_half (by rw [habs]; exact hlow.le) fun htie => ?_
  rw [habs] at htie
  exact absurd htie hlow.ne

theorem ceil (n : ℕ) (hhigh : 1 / 2 < f) (hf : f ≤ 1) : IsNearestWhole (n + f) (n + 1) := by
  have habs : |((n + 1 : ℕ) : ℚ) - (n + f)| = 1 - f := by
    rw [Nat.cast_add, Nat.cast_one, add_sub_add_left_eq_sub, abs_of_nonneg (by linarith)]
  refine .of_half (by rw [habs]; linarith) fun htie => ?_
  rw [habs] at htie
  linarith

/-- In the middle of two whole numbers the even one is taken. -/
theorem middle (n : ℕ) : IsNearestWhole (n + 1 / 2) (n + n % 2) := by
  have habs : |((n + n % 2 : ℕ) : ℚ) - (n + 1 / 2)| = 1 / 2 := by
    rw [Nat.cast_add, add_sub_add_left_eq_sub]
    rcases Nat.mod_two_eq_zero_or_one n with h | h <;> rw [h] <;> norm_num
  exact .of_half habs.le fun _ => by omega

end IsNearestWhole

/-- Division rounds to the nearest whole number. -/
theorem divideToEven_isNearestWhole (num : ℕ) (hden : den ≠ 0) :
    IsNearestWhole ((num : ℚ) / den) (divideToEven num den) := by
  have hpos : (0 : ℚ) < den := Nat.cast_pos.mpr (Nat.pos_of_ne_zero hden)
  have hsum : (num : ℚ) = den * (num / den : ℕ) + (num % den : ℕ) := by
    exact_mod_cast (Nat.div_add_mod num den).symm
  have hquotient : (num : ℚ) / den = (num / den : ℕ) + (num % den : ℕ) / den := by
    rw [hsum, add_div, mul_div_cancel_left₀ _ hpos.ne']
  have hnonneg : (0 : ℚ) ≤ ((num % den : ℕ) : ℚ) / den := by positivity
  rw [hquotient, divideToEven]
  split
  · next hlow =>
    refine .floor _ hnonneg ?_
    rw [div_lt_div_iff₀ hpos two_pos, one_mul, mul_comm]
    exact_mod_cast hlow
  split
  · next hhigh =>
    refine .ceil _ ?_ ?_
    · rw [div_lt_div_iff₀ two_pos hpos, one_mul, mul_comm]
      exact_mod_cast hhigh
    · rw [div_le_one hpos]
      exact_mod_cast (Nat.mod_lt num (Nat.pos_of_ne_zero hden)).le
  · next hlow hhigh =>
    have htwice : 2 * (num % den) = den := by omega
    have hhalf : ((num % den : ℕ) : ℚ) / den = 1 / 2 := by
      rw [div_eq_div_iff hpos.ne' two_ne_zero, one_mul, mul_comm]
      exact_mod_cast htwice
    rw [hhalf]
    exact .middle _

/-- The rounded mantissa is nearest to the quotient in units of a power of two. -/
theorem scaled_isNearestWhole (num : ℕ) (hden : den ≠ 0) (e : ℤ) :
    IsNearestWhole ((num : ℚ) / den / 2 ^ e) (scaled num den e) := by
  rw [scaled]
  split
  · next he =>
    lift e to ℕ using he
    have hne : den * Nat.pow 2 e ≠ 0 := Nat.mul_ne_zero hden (Nat.two_pow_pos e).ne'
    have heq : (num : ℚ) / den / 2 ^ (e : ℤ) = num / (den * Nat.pow 2 e : ℕ) := by
      rw [Nat.pow_eq, zpow_natCast, div_div]
      push_cast
      rfl
    rw [heq, Int.toNat_natCast]
    exact divideToEven_isNearestWhole num hne
  · next he =>
    obtain ⟨k, rfl⟩ : ∃ k : ℕ, e = -k := ⟨(-e).toNat, by omega⟩
    have heq : (num : ℚ) / den / 2 ^ (-(k : ℤ)) = (num * Nat.pow 2 k : ℕ) / den := by
      rw [Nat.pow_eq, zpow_neg, zpow_natCast, div_inv_eq_mul, div_mul_eq_mul_div]
      push_cast
      rfl
    rw [heq, neg_neg, Int.toNat_natCast]
    exact divideToEven_isNearestWhole _ hden

namespace IsNearestWhole

/-- A whole number is nearer than any other that is further away on the same side. -/
theorem le_of_le (h : IsNearestWhole r m) {k : ℕ} (hk : (k : ℚ) ≤ r) : k ≤ m := by
  by_contra hlt
  have hlt' : (m : ℚ) < k := by exact_mod_cast Nat.not_le.mp hlt
  have hne : (k : ℤ) ≠ m := by omega
  have hcast : ((k : ℤ) : ℚ) = k := Int.cast_natCast k
  have hm : |(m : ℚ) - r| = r - m := by rw [abs_sub_comm, abs_of_nonneg (by linarith)]
  have hk' : |((k : ℤ) : ℚ) - r| = r - k := by
    rw [hcast, abs_sub_comm, abs_of_nonneg (by linarith)]
  rcases h k hne with hnear | ⟨htied, -⟩ <;> linarith

theorem le_of_ge (h : IsNearestWhole r m) {k : ℕ} (hk : r ≤ (k : ℚ)) : m ≤ k := by
  by_contra hlt
  have hlt' : (k : ℚ) < m := by exact_mod_cast Nat.not_le.mp hlt
  have hne : (k : ℤ) ≠ m := by omega
  have hcast : ((k : ℤ) : ℚ) = k := Int.cast_natCast k
  have hm : |(m : ℚ) - r| = m - r := abs_of_nonneg (by linarith)
  have hk' : |((k : ℤ) : ℚ) - r| = k - r := by rw [hcast, abs_of_nonneg (by linarith)]
  rcases h k hne with hnear | ⟨htied, -⟩ <;> linarith

/-- What is rounded below an even number is less than the middle before it. -/
theorem lt_iff (h : IsNearestWhole r m) {k : ℕ} (heven : k % 2 = 0) :
    m < k ↔ r < k - 1 / 2 := by
  have hcast : ((k : ℤ) : ℚ) = k := Int.cast_natCast k
  constructor
  · intro hlt
    by_contra hge
    have hlt' : (m : ℚ) + 1 ≤ k := by exact_mod_cast hlt
    have hne : (k : ℤ) ≠ m := by omega
    have hm : |(m : ℚ) - r| = r - m := by rw [abs_sub_comm, abs_of_nonneg (by linarith)]
    have hk : |((k : ℤ) : ℚ) - r| ≤ r - m := by
      rw [hcast, abs_le]
      constructor <;> linarith
    rcases h k hne with hnear | ⟨htied, hmEven⟩
    · linarith
    · have hlast : m + 1 ≠ k := by omega
      have hfar : (m : ℚ) + 2 ≤ k := by exact_mod_cast (show m + 2 ≤ k by omega)
      have hnear : |((k : ℤ) : ℚ) - r| < r - m := by
        rw [hcast, abs_lt]
        constructor <;> linarith
      linarith
  · intro hlt
    by_contra hge
    have hge' : (k : ℚ) ≤ m := by exact_mod_cast Nat.not_lt.mp hge
    have hne : (k : ℤ) - 1 ≠ m := by omega
    have hm : |(m : ℚ) - r| = m - r := abs_of_nonneg (by linarith)
    have hk : |(((k : ℤ) - 1 : ℤ) : ℚ) - r| < m - r := by
      rw [Int.cast_sub, Int.cast_one, hcast, abs_lt]
      constructor <;> linarith
    rcases h _ hne with hnear | ⟨htied, -⟩ <;> linarith

end IsNearestWhole

/-! ## The power of two below a quotient -/

theorem atLeastPower_iff (hden : den ≠ 0) :
    atLeastPower num den e = true ↔ (2 : ℚ) ^ e ≤ num / den := by
  have hpos : (0 : ℚ) < den := Nat.cast_pos.mpr (Nat.pos_of_ne_zero hden)
  rw [atLeastPower, le_div_iff₀ hpos]
  split
  · next he =>
    lift e to ℕ using he
    rw [decide_eq_true_iff, Int.toNat_natCast, Nat.pow_eq, zpow_natCast, mul_comm]
    exact_mod_cast Iff.rfl
  · next he =>
    obtain ⟨k, rfl⟩ : ∃ k : ℕ, e = -k := ⟨(-e).toNat, by omega⟩
    have htwo : (0 : ℚ) < 2 ^ k := pow_pos two_pos k
    rw [decide_eq_true_iff, neg_neg, Int.toNat_natCast, Nat.pow_eq, zpow_neg, zpow_natCast,
      inv_mul_le_iff₀ htwo, mul_comm]
    exact_mod_cast Iff.rfl

theorem log2_spec (hn : n ≠ 0) : (2 : ℚ) ^ n.log2 ≤ n ∧ (n : ℚ) < 2 ^ (n.log2 + 1) :=
  ⟨by exact_mod_cast Nat.log2_self_le hn, by exact_mod_cast Nat.lt_log2_self⟩

/-- The difference of the logarithms is at most one too great. -/
theorem log2_sub_log2_spec (hnum : num ≠ 0) (hden : den ≠ 0) :
    (2 : ℚ) ^ ((num.log2 : ℤ) - den.log2 - 1) ≤ num / den ∧
      (num : ℚ) / den < 2 ^ ((num.log2 : ℤ) - den.log2 + 1) := by
  have hpos : (0 : ℚ) < den := Nat.cast_pos.mpr (Nat.pos_of_ne_zero hden)
  obtain ⟨hnumLow, hnumHigh⟩ := log2_spec hnum
  obtain ⟨hdenLow, hdenHigh⟩ := log2_spec hden
  generalize hguess : (num.log2 : ℤ) - den.log2 = guess
  constructor
  · have hsum : guess - 1 + (den.log2 + 1 : ℕ) = (num.log2 : ℕ) := by omega
    rw [le_div_iff₀ hpos]
    calc (2 : ℚ) ^ (guess - 1) * den ≤ 2 ^ (guess - 1) * 2 ^ (den.log2 + 1) := by gcongr
      _ = 2 ^ num.log2 := by
        rw [← zpow_natCast 2 (den.log2 + 1), ← zpow_add₀ two_ne_zero, hsum, zpow_natCast]
      _ ≤ num := hnumLow
  · have hsum : guess + 1 + (den.log2 : ℕ) = (num.log2 + 1 : ℕ) := by omega
    rw [div_lt_iff₀ hpos]
    calc (num : ℚ) < 2 ^ (num.log2 + 1) := hnumHigh
      _ = 2 ^ (guess + 1) * 2 ^ den.log2 := by
        rw [← zpow_natCast 2 den.log2, ← zpow_add₀ two_ne_zero, hsum, zpow_natCast]
      _ ≤ 2 ^ (guess + 1) * den := by gcongr

/-- A quotient lies between two powers of two. -/
theorem log2Ratio_spec (hnum : num ≠ 0) (hden : den ≠ 0) :
    (2 : ℚ) ^ log2Ratio num den ≤ num / den ∧ (num : ℚ) / den < 2 ^ (log2Ratio num den + 1) := by
  obtain ⟨hlow, hhigh⟩ := log2_sub_log2_spec hnum hden
  rw [log2Ratio]
  by_cases hreaches : atLeastPower num den ((num.log2 : ℤ) - den.log2) = true
  · rw [if_pos hreaches]
    exact ⟨(atLeastPower_iff hden).mp hreaches, hhigh⟩
  · rw [if_neg hreaches, sub_add_cancel]
    exact ⟨hlow, not_le.mp fun hle => hreaches ((atLeastPower_iff hden).mpr hle)⟩

/-! ## The best number on a grid -/

/-- No number is nearer to a quotient than the best one on its grid. -/
theorem IsNearestWhole.nearest (h : IsNearestWhole (q / 2 ^ e) m)
    (hgrid : e = leastExponent ∨ 2 ^ 52 ≤ q / 2 ^ e) {v : ℚ} (hy : y.toRat? = some v)
    (hne : v ≠ m * 2 ^ e) :
    |m * 2 ^ e - q| < |v - q| ∨ |m * 2 ^ e - q| = |v - q| ∧ m % 2 = 0 := by
  have hpos : (0 : ℚ) < 2 ^ e := zpow_pos two_pos e
  have hscale : ∀ a : ℚ, |a * 2 ^ e - q| = |a - q / 2 ^ e| * 2 ^ e := by
    intro a
    rw [← abs_of_pos hpos, ← abs_mul, abs_of_pos hpos, sub_mul, div_mul_cancel₀ _ hpos.ne']
  rcases on_grid_or_below hy e with ⟨j, rfl⟩ | ⟨hleast, hbelow⟩
  · have hj : j ≠ m := by
      rintro rfl
      exact hne rfl
    rw [hscale, hscale]
    rcases h j hj with hlt | ⟨heq, heven⟩
    · exact .inl (mul_lt_mul_of_pos_right hlt hpos)
    · exact .inr ⟨by rw [heq], heven⟩
  · -- The power `2^52` of the grid is between such a number and the quotient.
    have hlow : (2 : ℚ) ^ 52 ≤ q / 2 ^ e := hgrid.resolve_left hleast.ne'
    have hbest : |(m : ℚ) - q / 2 ^ e| ≤ q / 2 ^ e - 2 ^ 52 := by
      have habs : |((2 ^ 52 : ℤ) : ℚ) - q / 2 ^ e| = q / 2 ^ e - 2 ^ 52 := by
        rw [abs_sub_comm]
        push_cast
        exact abs_of_nonneg (by linarith)
      by_cases heq : (2 ^ 52 : ℤ) = m
      · rw [← habs, heq, Int.cast_natCast]
      · rw [← habs]
        exact (h (2 ^ 52) heq).elim le_of_lt fun htied => htied.1.le
    have hlow' : 2 ^ 52 * 2 ^ e ≤ q := (le_div_iff₀ hpos).mp hlow
    refine .inl ?_
    calc |m * 2 ^ e - q| = |m - q / 2 ^ e| * 2 ^ e := hscale m
      _ ≤ (q / 2 ^ e - 2 ^ 52) * 2 ^ e := by gcongr
      _ = q - 2 ^ 52 * 2 ^ e := by rw [sub_mul, div_mul_cancel₀ _ hpos.ne']
      _ < q - v := by linarith [le_abs_self v]
      _ ≤ |v - q| := by rw [abs_sub_comm]; exact le_abs_self _

/-! ## Quotients -/

/-- Zero is nearest to what is no more than half of the least number. -/
theorem zero_isNearest (s : Bool) (hq : |q| ≤ 1 / 2 * 2 ^ leastExponent) :
    (zero s).IsNearest q := by
  have hpos : (0 : ℚ) < 2 ^ leastExponent := zpow_pos two_pos _
  have hwhole : IsNearestWhole (q / 2 ^ leastExponent) 0 := by
    refine .of_half ?_ fun _ => rfl
    rw [Nat.cast_zero, zero_sub, abs_neg, abs_div, abs_of_pos hpos]
    exact (div_le_iff₀ hpos).mpr hq
  refine .finite (v := 0) (by simp [toRat?]) ?_ fun y w hy hne => ?_
  · have hleast : (2 : ℚ) ^ leastExponent ≤ 2 ^ greatestExponent :=
      zpow_le_zpow_right₀ one_le_two (by decide)
    rw [overflow_eq]
    linarith
  · simpa using hwhole.nearest (.inl rfl) hy (by simpa using hne)

/-- The mantissa and the power of two that a quotient is rounded to, before it is said whether a
number has them. -/
theorem exists_scaled (hnum : num ≠ 0) (hden : den ≠ 0) :
    ∃ (m : ℕ) (e : ℤ), e = max (log2Ratio num den - 52) leastExponent ∧ m = scaled num den e ∧
      IsNearestWhole ((num : ℚ) / den / 2 ^ e) m ∧ (num : ℚ) / den / 2 ^ e < 2 ^ 53 ∧
      (e = leastExponent ∨ 2 ^ 52 ≤ (num : ℚ) / den / 2 ^ e) := by
  obtain ⟨hlow, hhigh⟩ := log2Ratio_spec hnum hden
  refine ⟨_, _, rfl, rfl, scaled_isNearestWhole num hden _, ?_, ?_⟩
  all_goals generalize hexponent : max (log2Ratio num den - 52) leastExponent = e
  all_goals have hpos : (0 : ℚ) < 2 ^ e := zpow_pos two_pos e
  · rw [div_lt_iff₀ hpos, ← zpow_natCast, ← zpow_add₀ two_ne_zero]
    exact hhigh.trans_le (zpow_le_zpow_right₀ one_le_two (by omega))
  · by_cases hleast : e = leastExponent
    · exact .inl hleast
    · refine .inr ?_
      rw [le_div_iff₀ hpos, ← zpow_natCast, ← zpow_add₀ two_ne_zero]
      exact (zpow_le_zpow_right₀ one_le_two (by omega)).trans hlow

/-- What is rounded below `2^53` is below the middle before it. -/
theorem IsNearestWhole.fits_iff (hwhole : IsNearestWhole (q / 2 ^ e) m) :
    m < 2 ^ 53 ↔ q < (2 ^ 53 - 1 / 2) * 2 ^ e := by
  rw [hwhole.lt_iff (by decide), div_lt_iff₀ (zpow_pos two_pos e)]
  norm_num

/-- A mantissa of no more than 53 bits makes the nearest number. -/
theorem isNearest_of_fits (hwhole : IsNearestWhole (q / 2 ^ e) m) (hfits : m < 2 ^ 53)
    (hgrid : e = leastExponent ∨ 2 ^ 52 ≤ q / 2 ^ e) (hleast : leastExponent ≤ e) (hq : 0 ≤ q) :
    (if h : IsNormal m e then Binary64.finite false m e h else .infinity false).IsNearest q := by
  split
  · next normal =>
    refine .finite (v := m * 2 ^ e) (by simp [toRat?]) ?_ fun y w hy hne =>
      hwhole.nearest hgrid hy hne
    rw [abs_of_nonneg hq]
    exact (hwhole.fits_iff.mp hfits).trans_le (le_overflow normal.2.2.2)
  · next hover =>
    have hlow : e = leastExponent ∨ 2 ^ 52 ≤ m := by
      refine hgrid.imp_right fun hge => hwhole.le_of_le ?_
      exact_mod_cast hge
    have hgreatest : greatestExponent ≤ e - 1 := by
      by_contra hlt
      exact hover ⟨hfits, hlow.symm, hleast, by omega⟩
    have hlarge : 2 ^ 52 ≤ q / 2 ^ e := hgrid.resolve_left fun heq => by
      rw [heq] at hgreatest
      exact absurd hgreatest (by decide)
    have hhalf : (2 : ℚ) ^ e = 2 * 2 ^ (e - 1) := by
      rw [← zpow_one_add₀ two_ne_zero, add_sub_cancel]
    have hpos : (0 : ℚ) < 2 ^ (e - 1) := zpow_pos two_pos _
    rw [le_div_iff₀ (zpow_pos two_pos e), hhalf] at hlarge
    refine .infinity ?_
    show overflow ≤ q
    linarith [overflow_le hgreatest]

/-- A mantissa of one bit more is halved, and the exponent goes up. -/
theorem isNearest_of_carry (hwhole : IsNearestWhole (q / 2 ^ e) (2 ^ 53))
    (hhigh : q < 2 ^ 53 * 2 ^ e) (hgrid : e = leastExponent ∨ 2 ^ 52 ≤ q / 2 ^ e)
    (hleast : leastExponent ≤ e) (hq : 0 ≤ q) :
    (if h : IsNormal (2 ^ 52) (e + 1) then Binary64.finite false (2 ^ 52) (e + 1) h
      else .infinity false).IsNearest q := by
  have hdouble : (2 : ℚ) ^ (e + 1) = 2 * 2 ^ e := by rw [zpow_add_one₀ two_ne_zero, mul_comm]
  have hpos : (0 : ℚ) < 2 ^ e := zpow_pos two_pos e
  split
  · next normal =>
    have hsmall := le_overflow normal.2.2.2
    rw [hdouble] at hsmall
    refine .finite (v := (2 ^ 53 : ℕ) * 2 ^ e) ?_ ?_ fun y w hy hne => ?_
    · rw [toRat?_finite, hdouble]
      push_cast
      congr 1
      ring
    · rw [abs_of_nonneg hq]
      linarith
    · -- The mantissa is even before it is halved, and after.
      exact (hwhole.nearest hgrid hy hne).imp_right fun htied => ⟨htied.1, by decide⟩
  · next hover =>
    have hgreatest : greatestExponent ≤ e := by
      by_contra hlt
      exact hover ⟨by decide, .inl le_rfl, by omega, by omega⟩
    refine .infinity ?_
    exact (overflow_le hgreatest).trans (not_lt.mp (hwhole.fits_iff.not.mp (lt_irrefl _)))

theorem ofRatio_false_isNearest (num : ℕ) (hden : den ≠ 0) :
    (ofRatio false num den).IsNearest (num / den) := by
  by_cases hnum : num = 0
  · subst hnum
    rw [ofRatio, if_pos rfl]
    exact zero_isNearest false (by simp; positivity)
  obtain ⟨m, e, he, hm, hwhole, hhigh, hgrid⟩ := exists_scaled hnum hden
  have hleast : leastExponent ≤ e := by omega
  have hq : (0 : ℚ) ≤ num / den := by positivity
  have hpos : (0 : ℚ) < 2 ^ e := zpow_pos two_pos e
  rw [ofRatio, if_neg hnum, if_neg hden]
  simp only [← he, ← hm, Nat.pow_eq]
  by_cases hcarry : m = 2 ^ 53
  · subst hcarry
    rw [div_lt_iff₀ hpos] at hhigh
    simp only [if_true]
    exact isNearest_of_carry hwhole hhigh hgrid hleast hq
  · have hfits : m < 2 ^ 53 := by
      refine lt_of_le_of_ne (hwhole.le_of_ge ?_) hcarry
      exact_mod_cast hhigh.le
    simp only [if_neg hcarry]
    exact isNearest_of_fits hwhole hfits hgrid hleast hq

/-- A quotient is rounded to the number nearest to it. -/
theorem ofRatio_isNearest (s : Bool) (num : ℕ) (hden : den ≠ 0) :
    (ofRatio s num den).IsNearest ((if s then -1 else 1) * (num / den)) := by
  have hpositive := ofRatio_false_isNearest num hden
  cases s with
  | false => simpa using hpositive
  | true =>
    have hnegate : ofRatio true num den = (ofRatio false num den).negate := by
      simp only [ofRatio]
      split_ifs <;> rfl
    rw [hnegate]
    simpa using hpositive.negate

theorem ofNat_isNearest (n : ℕ) : (Binary64.ofNat n).IsNearest n := by
  simpa [Binary64.ofNat] using ofRatio_isNearest false n one_ne_zero

/-! ## Decimals -/

theorem two_zpow_le_ten_zpow {k : ℤ} (hk : 0 ≤ k) : (2 : ℚ) ^ (3 * k) ≤ 10 ^ k := by
  rw [zpow_mul]
  exact zpow_le_zpow_left₀ hk (by norm_num) (by norm_num)

theorem overflow_le_ten_zpow {k : ℤ} (hk : 400 < k) : overflow ≤ 10 ^ k := by
  have hpower : overflow ≤ 2 ^ 1024 := sub_le_self _ (by positivity)
  have hgrow : (2 : ℚ) ^ 1024 ≤ 2 ^ (3 * k) := by
    rw [← zpow_natCast]
    exact zpow_le_zpow_right₀ one_le_two (by omega)
  exact hpower.trans (hgrow.trans (two_zpow_le_ten_zpow (by omega)))

/-- A decimal is below the power of ten that has as many places as its digits can have. -/
theorem decimal_lt (digits : ℕ) (exponent : ℤ) :
    (digits : ℚ) * 10 ^ exponent < 10 ^ (exponent + ((digits.log2 : ℕ) : ℤ) / 3 + 1) := by
  have hten : (0 : ℚ) < 10 ^ exponent := zpow_pos (by norm_num) _
  have hdigits : (digits : ℚ) < 10 ^ (((digits.log2 : ℕ) : ℤ) / 3 + 1) := by
    have hlog : (digits : ℚ) < 2 ^ ((digits.log2 + 1 : ℕ) : ℤ) := by
      rw [zpow_natCast]
      exact_mod_cast Nat.lt_log2_self
    refine hlog.trans_le (le_trans ?_ (two_zpow_le_ten_zpow (by omega)))
    exact zpow_le_zpow_right₀ one_le_two (by omega)
  rw [add_assoc, zpow_add₀ (by norm_num), mul_comm]
  exact mul_lt_mul_of_pos_left hdigits hten

/-- Below the range of the format a decimal is no more than half of the least number. -/
theorem decimal_le_half_least {digits : ℕ} {exponent : ℤ}
    (h : exponent + ((digits.log2 : ℕ) : ℤ) / 3 + 1 < -400) :
    (digits : ℚ) * 10 ^ exponent ≤ 1 / 2 * 2 ^ leastExponent := by
  have hhalf : (1 / 2 : ℚ) * 2 ^ leastExponent = 2 ^ (-1075 : ℤ) := by
    rw [one_div, ← zpow_neg_one, ← zpow_add₀ two_ne_zero]
    rfl
  have hinverse : (10 : ℚ) ^ (-401 : ℤ) ≤ 2 ^ (-1203 : ℤ) := by
    rw [zpow_neg, zpow_neg]
    exact inv_anti₀ (zpow_pos two_pos _) (two_zpow_le_ten_zpow (by decide))
  rw [hhalf]
  calc (digits : ℚ) * 10 ^ exponent
      ≤ 10 ^ (exponent + ((digits.log2 : ℕ) : ℤ) / 3 + 1) := (decimal_lt digits exponent).le
    _ ≤ 10 ^ (-401 : ℤ) := zpow_le_zpow_right₀ (by norm_num) (by omega)
    _ ≤ 2 ^ (-1203 : ℤ) := hinverse
    _ ≤ 2 ^ (-1075 : ℤ) := zpow_le_zpow_right₀ one_le_two (by decide)

/-- A decimal is rounded to the number nearest to it. -/
theorem ofDecimal_isNearest (s : Bool) (digits : ℕ) (exponent : ℤ) :
    (ofDecimal s digits exponent).IsNearest
      ((if s then -1 else 1) * (digits * 10 ^ exponent)) := by
  have hten : (0 : ℚ) < 10 ^ exponent := zpow_pos (by norm_num) _
  rw [ofDecimal]
  by_cases hzero : digits = 0
  · subst hzero
    rw [if_pos rfl]
    exact zero_isNearest s (by simp; positivity)
  rw [if_neg hzero]
  have hone : (1 : ℚ) ≤ digits := by exact_mod_cast Nat.one_le_iff_ne_zero.mpr hzero
  by_cases hlarge : 400 < exponent
  · rw [if_pos hlarge]
    refine .infinity ?_
    have hover : overflow ≤ digits * 10 ^ exponent :=
      (overflow_le_ten_zpow hlarge).trans (le_mul_of_one_le_left hten.le hone)
    cases s <;> simpa using hover
  rw [if_neg hlarge]
  by_cases hsmall : exponent + ((digits.log2 : ℕ) : ℤ) / 3 + 1 < -400
  · rw [if_pos hsmall]
    refine zero_isNearest s ?_
    rw [abs_sign_mul s (by positivity)]
    exact decimal_le_half_least hsmall
  rw [if_neg hsmall]
  by_cases hwhole : 0 ≤ exponent
  · rw [if_pos hwhole]
    lift exponent to ℕ using hwhole
    simpa using ofRatio_isNearest s (digits * Nat.pow 10 exponent) one_ne_zero
  · rw [if_neg hwhole]
    obtain ⟨k, rfl⟩ : ∃ k : ℕ, exponent = -k := ⟨(-exponent).toNat, by omega⟩
    have hpower : Nat.pow 10 k ≠ 0 := (Nat.pow_pos (by decide)).ne'
    simpa [div_eq_mul_inv] using ofRatio_isNearest s digits hpower

end GoldenRun.Number.Binary64
