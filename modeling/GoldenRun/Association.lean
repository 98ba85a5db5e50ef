/-!
# Lists of keys with values

A list of pairs is searched for the first pair with a key.  A value is set by replacing the pairs
with its key, or at the end if there are none.
-/

namespace GoldenRun

variable {κ ν : Type} [DecidableEq κ] {pairs : List (κ × ν)} {key other : κ}

/-- To replace the values of a key leaves the other keys alone. -/
theorem find?_replaced (pairs : List (κ × ν)) (hother : other ≠ key) (value : ν) :
    (pairs.map fun pair => if pair.1 = key then (key, value) else pair).find? (·.1 = other) =
      pairs.find? (·.1 = other) := by
  induction pairs with
  | nil => rfl
  | cons pair rest ih =>
    by_cases hhere : pair.1 = key
    · have hother' : key ≠ other := fun hsame => hother hsame.symm
      simpa [hhere, hother'] using ih
    · by_cases hfound : pair.1 = other
      · simp [hfound, hother]
      · simpa [hhere, hfound] using ih

/-- A key whose values are replaced has the new one. -/
theorem find?_replaced_self (hthere : pairs.any (·.1 = key) = true) (value : ν) :
    (pairs.map fun pair => if pair.1 = key then (key, value) else pair).find? (·.1 = key) =
      some (key, value) := by
  induction pairs with
  | nil => simp at hthere
  | cons pair rest ih =>
    by_cases hhere : pair.1 = key
    · simp [hhere]
    · have hlater : rest.any (·.1 = key) = true := by simpa [hhere] using hthere
      simpa [hhere] using ih hlater

/-- A new key is found at the end, and no other key changes. -/
theorem find?_added (hnone : ¬ pairs.any (·.1 = key) = true) (value : ν) (other : κ) :
    (pairs ++ [(key, value)]).find? (·.1 = other) =
      if other = key then some (key, value) else pairs.find? (·.1 = other) := by
  rw [List.find?_append]
  by_cases hsame : other = key
  · subst hsame
    have hmissing : pairs.find? (·.1 = other) = none := by
      rw [List.find?_eq_none]
      intro pair hpair hfound
      exact hnone (List.any_eq_true.mpr ⟨pair, hpair, hfound⟩)
    simp [hmissing]
  · have hother : key ≠ other := fun heq => hsame heq.symm
    simp [hsame, hother]

end GoldenRun
