import GoldenRun.CommandLine.Flag
import GoldenRun.Text.Units

/-!
# Suggestions

A misspelt flag is answered with the flags that it may have meant: the nearest ones, if they are
near enough.  The distance of two words is the number of sixteen-bit units that have to be
inserted, deleted, replaced or swapped with their neighbour, where no unit is changed twice.
-/

namespace GoldenRun.CommandLine

open GoldenRun.Text

/-- The row of distances for one more unit of the first word: from its beginning up to this unit to
every beginning of the second word.  `above` is the row before and `above2` the one before that. -/
def distanceRow (word : List Nat) (size unit : Nat) (before : Option Nat)
    (above2 above : List Nat) : List Nat :=
  (List.range word.length).foldl (fun row j =>
    let other := word.getD j 0
    let replaced := above.getD j 0 + if unit = other then 0 else 1
    let best := min (min (above.getD (j + 1) 0 + 1) (row.getD j 0 + 1)) replaced
    let swapped := 0 < j && before = some other && word[j - 1]? = some unit
    row ++ [if swapped then min best (above2.getD (j - 1) 0 + 1) else best]) [size]

/-- The last row of distances, given those above it. -/
def distanceRows (word : List Nat) :
    (size : Nat) → (before : Option Nat) → (above2 above : List Nat) → List Nat → List Nat
  | _, _, _, above, [] => above
  | size, before, above2, above, unit :: rest =>
    distanceRows word (size + 1) (some unit) above
      (distanceRow word (size + 1) unit before above2 above) rest

/-- The distance of two words. -/
def distance (a b : List Nat) : Nat :=
  (distanceRows b 0 none [] (List.range (b.length + 1)) a).getLast?.getD 0

/-- The greatest distance at which a word is suggested. -/
def greatestDistance : Nat := 3

/-- The distance of a word from a misspelt one, if it may have been meant: it is near, and more
than two fifths of the longer word are in place. -/
def nearness? (misspelt candidate : String) : Option Nat :=
  let a := misspelt.toList.flatMap units
  let b := candidate.toList.flatMap units
  let size := max a.length b.length
  if greatestDistance < a.length - b.length ∨ greatestDistance < b.length - a.length then none
  else
    let d := distance a b
    if d ≤ greatestDistance ∧ 2 * size < 5 * (size - d) ∧ 1 < b.length then some d else none

/-- The words that may have been meant, in order. -/
def suggestions (misspelt : String) (candidates : List String) : List String :=
  let near := candidates.eraseDups.filterMap fun c => (nearness? misspelt c).map fun d => (d, c)
  match (near.map (·.1)).min? with
  | none => []
  | some least =>
    ((near.filter (·.1 = least)).map (·.2)).mergeSort fun a b => decide (a ≤ b)

/-- The flags that may have been meant, written with their names. -/
def flagSuggestions (arg : String) (flags : List Flag) : List String :=
  if arg.startsWith "--" then
    (suggestions (arg.drop 2).toString (flags.map Flag.name)).map ("--" ++ ·)
  else []

end GoldenRun.CommandLine
