import GoldenRun.Execution.Signal

/-!
# Signals in scripts

The words by which a shell knows signals.  They have no letters in common, and three numbers and
the signals of real-time programs are among them.  The end of the shell counts as signal 0.
-/

namespace GoldenRun.Signal

/-- How many signals there are, the end of a shell included. -/
def count : Nat := 65

/-- The word for a signal. -/
def word (signal : Signal) : String :=
  let n := signal.number
  if n = 0 then "EXIT"
  else if n = 16 ∨ n = 32 ∨ n = 33 then toString n
  else if n < 32 then signal.shortName
  else if n = 34 then "RTMIN"
  else if n < 50 then "RTMIN+" ++ toString (n - 34)
  else if n < 64 then "RTMAX-" ++ toString (64 - n)
  else "RTMAX"

/-- The signal that a text means, by its number or its word in capitals or small letters; words
count from the signal `least`. -/
def ofWord? (least : Nat) (text : String) : Option Signal :=
  if text ≠ "" && text.toList.all Char.isDigit then
    text.toNat?.bind fun n => if n < count then some ⟨n⟩ else none
  else
    ((List.range count).drop least).findSome? fun n =>
      if (word ⟨n⟩).toUpper = text.toUpper then some (⟨n⟩ : Signal) else none

/-- The signal that a status tells of, or that a number is. -/
def ofStatus? (n : Nat) : Option Signal :=
  let n := if 128 < n then n - 128 else n
  if 0 < n ∧ n < count then some ⟨n⟩ else none

/-- All words, one a line, the first of them as a number. -/
def wordLines : String :=
  String.join ("0\n" :: ((List.range count).drop 1).map fun n => word ⟨n⟩ ++ "\n")

end GoldenRun.Signal
