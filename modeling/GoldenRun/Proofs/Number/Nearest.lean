import GoldenRun.Proofs.Number.Rational
import Mathlib.Tactic.GCongr
import Mathlib.Tactic.Linarith
import Mathlib.Tactic.Positivity

/-!
# The nearest number

A number is nearest to a rational number if no other one is nearer to it, and if it has the even
mantissa where another one is equally near (`IsNearest`).  What is beyond the middle between the
greatest number and the next power of two is nearest to an infinity.

* `on_grid_or_below`: where the numbers are
* `mantissa_unique`: every finite number has one form
* `IsNearest.unique`: there is one nearest number
* `IsNearest.eq_natCast`, `IsNearest.natural`: what is nearest to a natural number
-/

namespace GoldenRun.Number.Binary64

variable {m n : ℕ} {e : ℤ} {q : ℚ} {x y : Binary64}

/-! ## The nearest number -/

/-- The middle between the greatest finite number and the power of two that comes after it. -/
def overflow : ℚ := 2 ^ 1024 - 2 ^ 970

/-- `IsNearest q x`: of all numbers `x` is nearest to `q`.  Of two that are equally near it is the
one with the even mantissa, and from `overflow` on it is an infinity. -/
inductive IsNearest (q : ℚ) : Binary64 → Prop where
  /-- A finite number. -/
  | finite {s : Bool} {m : ℕ} {e : ℤ} {normal : IsNormal m e} {v : ℚ}
      (hvalue : (Binary64.finite s m e normal).toRat? = some v) (hsmall : |q| < overflow)
      (hnear : ∀ (y : Binary64) (w : ℚ), y.toRat? = some w → w ≠ v →
        |v - q| < |w - q| ∨ |v - q| = |w - q| ∧ m % 2 = 0) :
      IsNearest q (.finite s m e normal)
  /-- An infinity. -/
  | infinity {s : Bool} (hlarge : overflow ≤ if s then -q else q) : IsNearest q (.infinity s)

theorem toRat?_finite (s : Bool) (m : ℕ) (e : ℤ) (h : IsNormal m e) :
    (Binary64.finite s m e h).toRat? = some ((if s then (-1 : ℚ) else 1) * (m * 2 ^ e)) := rfl

theorem overflow_eq : overflow = (2 ^ 53 - 1 / 2) * 2 ^ greatestExponent := by
  have hgreatest : greatestExponent = (971 : ℕ) := rfl
  have hfirst : (2 : ℚ) ^ 1024 = 2 ^ 53 * 2 ^ 971 := by rw [← pow_add]
  have hsecond : (2 : ℚ) ^ 971 = 2 * 2 ^ 970 := by rw [← pow_succ']
  rw [overflow, hgreatest, zpow_natCast, hfirst, hsecond]
  generalize (2 : ℚ) ^ 970 = power
  ring

theorem abs_sign_mul (s : Bool) {a : ℚ} (ha : 0 ≤ a) :
    |(if s then (-1 : ℚ) else 1) * a| = a := by
  cases s <;> simp [abs_of_nonneg ha]

/-- On the grid of `2^e` stand all numbers, except those that are below what is rounded on it. -/
theorem on_grid_or_below {v : ℚ} (hy : y.toRat? = some v) (e : ℤ) :
    (∃ j : ℤ, v = j * 2 ^ e) ∨ leastExponent < e ∧ |v| < 2 ^ 52 * 2 ^ e := by
  cases y with
  | nan => cases hy
  | infinity s => cases hy
  | finite s m f normal =>
    obtain rfl := Option.some.inj hy
    by_cases hf : e ≤ f
    · refine .inl ⟨(if s then -1 else 1) * (m * 2 ^ (f - e).toNat), ?_⟩
      have hpower : (2 : ℚ) ^ f = 2 ^ (f - e).toNat * 2 ^ e := by
        rw [← zpow_natCast, ← zpow_add₀ two_ne_zero]
        congr 1
        omega
      rw [hpower]
      push_cast
      cases s <;> simp [mul_assoc]
    · obtain ⟨hmantissa, -, hleast, -⟩ := normal
      have hmantissa' : (m : ℚ) < 2 ^ 53 := by exact_mod_cast hmantissa
      refine .inr ⟨by omega, ?_⟩
      have hpower : (2 : ℚ) * 2 ^ f ≤ 2 ^ e := by
        rw [← zpow_one_add₀ two_ne_zero]
        exact zpow_le_zpow_right₀ one_le_two (by omega)
      rw [abs_sign_mul s (by positivity)]
      calc (m : ℚ) * 2 ^ f < 2 ^ 53 * 2 ^ f := by gcongr
        _ = 2 ^ 52 * (2 * 2 ^ f) := by ring
        _ ≤ 2 ^ 52 * 2 ^ e := by gcongr

/-! ## Opposites -/

theorem toRat?_negate (x : Binary64) : x.negate.toRat? = x.toRat?.map (- ·) := by
  cases x with
  | nan => rfl
  | infinity s => rfl
  | finite s m e h => cases s <;> simp [negate, toRat?]

theorem IsNearest.negate (h : x.IsNearest q) : x.negate.IsNearest (-q) := by
  cases h with
  | infinity hlarge =>
    refine .infinity ?_
    rename_i s
    cases s <;> simpa using hlarge
  | @finite s m e normal v hvalue hsmall hnear =>
    have hmirror : ∀ a b : ℚ, |-a - -b| = |a - b| := by
      intro a b
      rw [neg_sub_neg, abs_sub_comm]
    refine .finite (v := -v) ?_ (by rwa [abs_neg]) ?_
    · have hnegated := toRat?_negate (.finite s m e normal)
      rwa [hvalue] at hnegated
    · intro y w hy hne
      have hy' : y.negate.toRat? = some (-w) := by rw [toRat?_negate, hy]; rfl
      have hnear' := hnear y.negate (-w) hy' fun heq => hne (by rw [← heq, neg_neg])
      rwa [← hmirror (-w) q, neg_neg, ← hmirror v q] at hnear'

/-! ## The range of the numbers -/

/-- The least quotient that is rounded to a greater mantissa than any number has. -/
theorem le_overflow {f : ℤ} (hf : f ≤ greatestExponent) :
    (2 ^ 53 - 1 / 2 : ℚ) * 2 ^ f ≤ overflow := by
  have hpower : (2 : ℚ) ^ f ≤ 2 ^ greatestExponent := zpow_le_zpow_right₀ one_le_two hf
  rw [overflow_eq]
  exact mul_le_mul_of_nonneg_left hpower (by norm_num)

theorem overflow_le {f : ℤ} (hf : greatestExponent ≤ f) :
    overflow ≤ (2 ^ 53 - 1 / 2 : ℚ) * 2 ^ f := by
  have hpower : (2 : ℚ) ^ greatestExponent ≤ 2 ^ f := zpow_le_zpow_right₀ one_le_two hf
  rw [overflow_eq]
  exact mul_le_mul_of_nonneg_left hpower (by norm_num)

/-! ## One form for each number -/

theorem mantissa_unique_of_le {m' : ℕ} {e' : ℤ} (normal : IsNormal m e) (normal' : IsNormal m' e')
    (h : (m : ℚ) * 2 ^ e = m' * 2 ^ e') (hle : e ≤ e') : m = m' := by
  obtain ⟨k, rfl⟩ := Int.le.dest hle
  have hmantissa : m = m' * 2 ^ k := by
    rw [zpow_add₀ two_ne_zero, zpow_natCast, mul_left_comm, mul_comm,
      mul_right_inj' (zpow_pos two_pos e).ne'] at h
    exact_mod_cast h
  by_cases hk : k = 0
  · rw [hmantissa, hk, pow_zero, mul_one]
  · -- The mantissa at the greater exponent is not small, so the other one would be too great.
    have hsmall : m < 2 ^ 53 := normal.1
    have hlarge : 2 ^ 52 ≤ m' := normal'.2.1.resolve_right fun hleast => by
      have hge := normal.2.2.1
      omega
    have hdouble : 2 ^ 1 ≤ 2 ^ k := Nat.pow_le_pow_right two_pos (by omega)
    have hproduct : 2 ^ 52 * 2 ^ 1 ≤ m' * 2 ^ k := Nat.mul_le_mul hlarge hdouble
    omega

/-- Every finite number has one form. -/
theorem mantissa_unique {m' : ℕ} {e' : ℤ} (normal : IsNormal m e) (normal' : IsNormal m' e')
    (h : (m : ℚ) * 2 ^ e = m' * 2 ^ e') : m = m' := by
  rcases le_total e e' with hle | hle
  · exact mantissa_unique_of_le normal normal' h hle
  · exact (mantissa_unique_of_le normal' normal h.symm hle).symm

/-! ## One nearest number -/

section Between

variable {s s' : Bool} {m' : ℕ} {e' : ℤ} {normal : IsNormal m e} {normal' : IsNormal m' e'} {v w : ℚ}

/-- Behind a number with an even mantissa comes one with an odd mantissa. -/
theorem exists_between_of_nonneg (normal : IsNormal m e)
    (hw : (Binary64.finite s' m' e' normal').toRat? = some w) (hm : m % 2 = 0) (hm' : m' % 2 = 0)
    (hlt : m * 2 ^ e < w) :
    ∃ (y : Binary64) (u : ℚ), y.toRat? = some u ∧ m * 2 ^ e < u ∧ u < w := by
  have hpos : (0 : ℚ) < 2 ^ e := zpow_pos two_pos e
  have hnonneg : (0 : ℚ) ≤ m * 2 ^ e := by positivity
  have hsmall : m < 2 ^ 53 := normal.1
  have hnext : IsNormal (m + 1) e :=
    ⟨show m + 1 < 2 ^ 53 by omega, normal.2.1.imp_left Nat.le_succ_of_le, normal.2.2⟩
  refine ⟨.finite false (m + 1) e hnext, (m + 1 : ℕ) * 2 ^ e, by simp [toRat?_finite], ?_, ?_⟩
  · push_cast
    linarith
  rcases on_grid_or_below hw e with ⟨j, rfl⟩ | ⟨hleast, hbelow⟩
  · have hj : (m : ℤ) < j := by exact_mod_cast lt_of_mul_lt_mul_right hlt hpos.le
    have hne : j ≠ (m + 1 : ℕ) := by
      rintro rfl
      -- There is no other form of this number, and in this one its mantissa is odd.
      have hsign : s' = false := by
        cases s' with
        | false => rfl
        | true =>
          have hvalue := Option.some.inj hw
          have hnonneg' : (0 : ℚ) ≤ m' * 2 ^ e' := by positivity
          rw [if_pos rfl, neg_one_mul] at hvalue
          linarith
      subst hsign
      have hvalue := Option.some.inj hw
      rw [if_neg Bool.false_ne_true, one_mul, Int.cast_natCast] at hvalue
      have hsame := mantissa_unique normal' hnext hvalue
      omega
    have hj' : ((m + 1 : ℕ) : ℚ) < j := by
      exact_mod_cast (show ((m + 1 : ℕ) : ℤ) < j by omega)
    exact mul_lt_mul_of_pos_right hj' hpos
  · have hlarge : 2 ^ 52 ≤ m := normal.2.1.resolve_right hleast.ne'
    have hlarge' : (2 : ℚ) ^ 52 * 2 ^ e ≤ m * 2 ^ e := by
      have hcast : (2 : ℚ) ^ 52 ≤ m := by exact_mod_cast hlarge
      exact mul_le_mul_of_nonneg_right hcast hpos.le
    exact absurd (hlt.trans_le (le_abs_self w)) (not_lt.mpr (hbelow.le.trans hlarge'))

theorem eq_of_toRat?_nonneg (hv : (Binary64.finite s m e normal).toRat? = some v) (h : 0 ≤ v) :
    v = m * 2 ^ e := by
  obtain rfl := Option.some.inj hv
  have hnonneg : (0 : ℚ) ≤ m * 2 ^ e := by positivity
  cases s with
  | false => rw [if_neg Bool.false_ne_true, one_mul]
  | true =>
    rw [if_pos rfl, neg_one_mul] at h ⊢
    linarith

/-- Between two numbers with even mantissas there is another one. -/
theorem exists_between (hv : (Binary64.finite s m e normal).toRat? = some v)
    (hw : (Binary64.finite s' m' e' normal').toRat? = some w) (hm : m % 2 = 0) (hm' : m' % 2 = 0)
    (hlt : v < w) : ∃ (y : Binary64) (u : ℚ), y.toRat? = some u ∧ v < u ∧ u < w := by
  by_cases hright : 0 ≤ v
  · rw [eq_of_toRat?_nonneg hv hright] at hlt ⊢
    exact exists_between_of_nonneg normal hw hm hm' hlt
  by_cases hleft : w ≤ 0
  · have hv' : (Binary64.finite (!s) m e normal).toRat? = some (-v) := by
      have hnegated := toRat?_negate (.finite s m e normal)
      rwa [hv] at hnegated
    have hw' : (Binary64.finite (!s') m' e' normal').toRat? = some (-w) := by
      have hnegated := toRat?_negate (.finite s' m' e' normal')
      rwa [hw] at hnegated
    have hmirror := eq_of_toRat?_nonneg hw' (by linarith)
    obtain ⟨y, u, hy, hlow, hhigh⟩ :=
      exists_between_of_nonneg normal' hv' hm' hm (by rw [← hmirror]; linarith)
    rw [← hmirror] at hlow
    exact ⟨y.negate, -u, by rw [toRat?_negate, hy]; rfl, by linarith, by linarith⟩
  · exact ⟨zero false, 0, by simp [zero, toRat?], by linarith, by linarith⟩

end Between

theorem IsNearest.overflow_le {s : Bool} (h : (Binary64.infinity s).IsNearest q) :
    overflow ≤ |q| := by
  cases h with
  | infinity hlarge =>
    cases s with
    | false => exact le_trans hlarge (le_abs_self q)
    | true => exact le_trans hlarge (neg_le_abs q)

/-- Of two numbers that are equally near, neither is nearer than what is between them. -/
theorem abs_sub_lt_of_between {u v w : ℚ} (htie : |v - q| = |w - q|) (hlow : v < u)
    (hhigh : u < w) : |u - q| < |v - q| := by
  rcases abs_eq_abs.mp htie with hsame | hopposite
  · linarith
  · rw [abs_of_neg (show v - q < 0 by linarith), abs_lt]
    constructor <;> linarith

/-- There is one nearest number; zero may have either sign. -/
theorem IsNearest.unique (hx : x.IsNearest q) (hy : y.IsNearest q) : x.toRat? = y.toRat? := by
  cases hx with
  | infinity hlarge =>
    cases hy with
    | infinity hlarge' => rfl
    | finite hvalue hsmall hnear =>
      exact absurd hsmall (not_lt.mpr (IsNearest.infinity hlarge).overflow_le)
  | @finite s m e normal v hvalue hsmall hnear =>
    cases hy with
    | infinity hlarge => exact absurd hsmall (not_lt.mpr (IsNearest.infinity hlarge).overflow_le)
    | @finite s' m' e' normal' w hvalue' hsmall' hnear' =>
      rw [hvalue, hvalue']
      by_contra hne
      have hvw : v ≠ w := fun heq => hne (by rw [heq])
      have htied : |v - q| = |w - q| ∧ m % 2 = 0 ∧ m' % 2 = 0 := by
        rcases hnear _ w hvalue' hvw.symm with hlt | ⟨heq, heven⟩ <;>
          rcases hnear' _ v hvalue hvw with hlt' | ⟨heq', heven'⟩
        · exact absurd hlt hlt'.asymm
        · exact absurd heq'.symm hlt.ne
        · exact absurd heq.symm hlt'.ne
        · exact ⟨heq, heven, heven'⟩
      obtain ⟨htie, heven, heven'⟩ := htied
      rcases hvw.lt_or_gt with hlt | hlt
      · obtain ⟨z, u, hz, hlow, hhigh⟩ := exists_between hvalue hvalue' heven heven' hlt
        have hnearer := abs_sub_lt_of_between htie hlow hhigh
        rcases hnear z u hz hlow.ne' with hnot | ⟨hnot, -⟩ <;> linarith
      · obtain ⟨z, u, hz, hlow, hhigh⟩ := exists_between hvalue' hvalue heven' heven hlt
        have hnearer := abs_sub_lt_of_between htie.symm hlow hhigh
        rcases hnear' z u hz hlow.ne' with hnot | ⟨hnot, -⟩ <;> linarith

/-! ## What is nearest to a natural number -/

theorem toRat?_lt_overflow {v : ℚ} (hy : y.toRat? = some v) : |v| < overflow := by
  cases y with
  | nan => cases hy
  | infinity s => cases hy
  | finite s m e normal =>
    obtain rfl := Option.some.inj hy
    obtain ⟨hmantissa, -, -, hgreatest⟩ := normal
    have hpos : (0 : ℚ) < 2 ^ e := zpow_pos two_pos e
    have hmantissa' : (m : ℚ) ≤ 2 ^ 53 - 1 := by
      rw [le_sub_iff_add_le]
      exact_mod_cast hmantissa
    rw [abs_sign_mul s (by positivity)]
    refine lt_of_lt_of_le ?_ (le_overflow hgreatest)
    exact mul_lt_mul_of_pos_right (by linarith) hpos

/-- A number is nearest to itself. -/
theorem isNearest_self (hy : y.toRat? = some q) : y.IsNearest q := by
  cases y with
  | nan => cases hy
  | infinity s => cases hy
  | finite s m e normal =>
    refine .finite hy (toRat?_lt_overflow hy) fun z w hz hne => .inl ?_
    rw [sub_self, abs_zero]
    exact abs_pos.mpr (sub_ne_zero.mpr hne)

/-- Up to `2^53` every natural number is a number. -/
theorem exists_toRat?_eq_natCast (hn : n ≤ 2 ^ 53) : ∃ y : Binary64, y.toRat? = some (n : ℚ) := by
  by_cases hzero : n = 0
  · exact ⟨zero false, by simp [zero, toRat?, hzero]⟩
  by_cases hlast : n = 2 ^ 53
  · refine ⟨.finite false (2 ^ 52) 1 (by decide), ?_⟩
    rw [toRat?_finite, hlast]
    norm_num
  have hlow : 2 ^ n.log2 ≤ n := Nat.log2_self_le hzero
  have hhigh : n < 2 ^ (n.log2 + 1) := Nat.lt_log2_self
  have hlog : n.log2 < 53 := (Nat.log2_lt hzero).mpr (by omega)
  obtain ⟨k, hk⟩ : ∃ k, n.log2 + k = 52 := ⟨52 - n.log2, by omega⟩
  have hscaled : 2 ^ 52 ≤ n * 2 ^ k ∧ n * 2 ^ k < 2 ^ 53 := by
    rw [show 53 = n.log2 + 1 + k by omega, ← hk, pow_add, pow_add 2 (n.log2 + 1)]
    exact ⟨Nat.mul_le_mul_right _ hlow, Nat.mul_lt_mul_of_pos_right hhigh (Nat.two_pow_pos k)⟩
  have hleast : leastExponent = -1074 := rfl
  have hgreatest : greatestExponent = 971 := rfl
  have normal : IsNormal (n * 2 ^ k) (-k) := ⟨hscaled.2, .inl hscaled.1, by omega, by omega⟩
  refine ⟨.finite false (n * 2 ^ k) (-k) normal, ?_⟩
  have htwo : (2 : ℚ) ^ k ≠ 0 := pow_ne_zero k two_ne_zero
  rw [toRat?_finite, if_neg Bool.false_ne_true, one_mul, zpow_neg, zpow_natCast, Nat.cast_mul,
    Nat.cast_pow, Nat.cast_two, mul_inv_cancel_right₀ htwo]

theorem IsNearest.eq_natCast (h : x.IsNearest n) (hn : n ≤ 2 ^ 53) : x.toRat? = some (n : ℚ) := by
  obtain ⟨y, hy⟩ := exists_toRat?_eq_natCast hn
  exact (h.unique (isNearest_self hy)).trans hy

/-- From `2^53` on every number is a natural number. -/
theorem natural_of_ge {v : ℚ} (hx : x.toRat? = some v) (hge : (2 ^ 53 : ℕ) ≤ v) :
    ∃ k : ℕ, v = k := by
  cases x with
  | nan => cases hx
  | infinity s => cases hx
  | finite s m e normal =>
    obtain rfl := Option.some.inj hx
    have hnonneg : (0 : ℚ) ≤ m * 2 ^ e := by positivity
    have hmantissa : (m : ℚ) < (2 ^ 53 : ℕ) := by exact_mod_cast normal.1
    cases s with
    | true =>
      rw [if_pos rfl, neg_one_mul] at hge
      have hpos : (0 : ℚ) < (2 ^ 53 : ℕ) := by exact_mod_cast Nat.two_pow_pos 53
      linarith
    | false =>
      rw [if_neg Bool.false_ne_true, one_mul] at hge ⊢
      have he : 0 ≤ e := by
        by_contra hneg
        have hle : (2 : ℚ) ^ e ≤ 1 := zpow_le_one_of_nonpos₀ one_le_two (by omega)
        have hmul : (m : ℚ) * 2 ^ e ≤ m := mul_le_of_le_one_right (Nat.cast_nonneg m) hle
        linarith
      lift e to ℕ using he
      exact ⟨m * 2 ^ e, by push_cast; rfl⟩

/-- What is nearest to a natural number is one itself, if it is finite. -/
theorem IsNearest.natural (h : x.IsNearest n) (hn : (n : ℚ) < overflow) :
    ∃ k : ℕ, x.toRat? = some (k : ℚ) := by
  by_cases hsmall : n ≤ 2 ^ 53
  · exact ⟨n, h.eq_natCast hsmall⟩
  have hlarge : (2 ^ 53 : ℕ) < (n : ℚ) := by exact_mod_cast Nat.not_le.mp hsmall
  cases h with
  | infinity hover =>
    have hlarge' := (IsNearest.infinity hover).overflow_le
    rw [Nat.abs_cast] at hlarge'
    exact absurd hn (not_lt.mpr hlarge')
  | @finite s m e normal v hvalue hbelow hnear =>
    -- The number `2^53` is on the way from anything smaller.
    have hge : (2 ^ 53 : ℕ) ≤ v := by
      by_contra hlt
      have hlt' := not_le.mp hlt
      obtain ⟨y, hy⟩ := exists_toRat?_eq_natCast (le_refl (2 ^ 53))
      have hself := hnear y _ hy (ne_of_gt hlt')
      rw [abs_sub_comm v, abs_sub_comm _ (n : ℚ), abs_of_nonneg (by linarith),
        abs_of_nonneg (by linarith)] at hself
      rcases hself with hless | ⟨heq, -⟩ <;> linarith
    obtain ⟨k, rfl⟩ := natural_of_ge hvalue hge
    exact ⟨k, hvalue⟩

end GoldenRun.Number.Binary64
