import GoldenRun.Proofs.Number
import Mathlib.Algebra.Order.Field.Power
import Mathlib.Data.Rat.Cast.Order

/-!
# Numbers as rational numbers

* `toRat?`: the value of a number that is finite
* `toRat?_eq_natCast_iff`, `natural_iff`: the numbers whose value is a natural number
-/

namespace GoldenRun.Number.Binary64

variable {s : Bool} {m n : ℕ} {e : ℤ} {h : IsNormal m e}

/-- The value of a number that is finite. -/
def toRat? : Binary64 → Option ℚ
  | .finite s m e _ => some ((if s then -1 else 1) * (m * 2 ^ e))
  | _ => none

theorem wholeMagnitude?_eq_some_iff_rat :
    (finite s m e h).wholeMagnitude? = some n ↔ (m : ℚ) * 2 ^ e = n := by
  rw [wholeMagnitude?_eq_some_iff]
  by_cases he : 0 ≤ e
  · lift e to ℕ using he
    simp only [Int.natCast_nonneg, true_and, Int.toNat_natCast, zpow_natCast]
    rw [or_iff_left (fun hneg => absurd hneg.1 (by omega)), eq_comm]
    exact_mod_cast Iff.rfl
  · obtain ⟨k, rfl⟩ : ∃ k : ℕ, e = -k := ⟨(-e).toNat, by omega⟩
    have htwo : (2 : ℚ) ^ k ≠ 0 := pow_ne_zero k two_ne_zero
    rw [or_iff_right fun hpos => he hpos.1, and_iff_right (by omega), neg_neg, Int.toNat_natCast,
      zpow_neg, zpow_natCast, mul_inv_eq_iff_eq_mul₀ htwo]
    exact_mod_cast Iff.rfl

/-- The numbers whose value is a given natural number; both zeros are 0. -/
theorem toRat?_eq_natCast_iff (x : Binary64) :
    x.toRat? = some (n : ℚ) ↔ x.wholeMagnitude? = some n ∧ x.isNegative = false := by
  cases x with
  | nan => simp [toRat?, wholeMagnitude?]
  | infinity s => simp [toRat?, wholeMagnitude?]
  | finite s m e h =>
    simp only [toRat?, Option.some.injEq, wholeMagnitude?_eq_some_iff_rat, isNegative]
    cases s with
    | false => simp
    | true =>
      by_cases hm : m = 0
      · subst hm
        simp
      · -- Such a number is below zero, and no natural number is.
        have hpos : (0 : ℚ) < m * 2 ^ e :=
          mul_pos (Nat.cast_pos.mpr (Nat.pos_of_ne_zero hm)) (zpow_pos two_pos e)
        have hne : -((m : ℚ) * 2 ^ e) ≠ n := fun hn =>
          (neg_neg_of_pos hpos).not_ge (hn ▸ Nat.cast_nonneg n)
        simp [hm, hne]

/-- A number without a fraction that is not negative is a natural number; either zero is. -/
theorem natural_iff (x : Binary64) :
    (∃ n : ℕ, x.toRat? = some (n : ℚ)) ↔ x.isWhole = true ∧ x.isNegative = false := by
  simp only [toRat?_eq_natCast_iff, isWhole, Option.isSome_iff_exists, exists_and_right]

end GoldenRun.Number.Binary64
