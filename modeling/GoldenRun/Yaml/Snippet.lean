import GoldenRun.Text.Units

/-!
# The lines around a fault

A snippet shows the line of a fault with a mark below it, at most three lines before and at most
two behind, each with its number.  A line that is too long is cut around the column of the fault.
-/

namespace GoldenRun.Yaml

open GoldenRun.Text

namespace Snippet

/-- The greatest number of columns. -/
def columns : Nat := 79

/-- The greatest number of lines before the fault. -/
def linesBefore : Nat := 3

/-- The greatest number of lines behind the fault. -/
def linesAfter : Nat := 2

/-- The begin and end of each line of a text, in units.  The last line has no end if no line
break ends it. -/
def bounds : Nat → Nat → List Char → List (Nat × Option Nat)
  | start, _, [] => [(start, none)]
  | start, here, '\r' :: '\n' :: rest => (start, some here) :: bounds (here + 2) (here + 2) rest
  | start, here, c :: rest =>
    if c = '\n' ∨ c = '\r' ∨ c = '\x00' then
      (start, some here) :: bounds (here + 1) (here + 1) rest
    else bounds start (here + width [c]) rest

/-- The units of a text from one place to another. -/
def slice (text : List Nat) (start stop : Int) : List Nat :=
  (text.take stop.toNat).drop start.toNat

/-- A line, cut around a place, and the column of the place in what is shown. -/
def cut (text : List Nat) (start : Nat) (stop : Option Nat) (place : Int) (room : Nat) :
    String × Int :=
  let half : Int := (room / 2 : Nat) - 1
  let (head, first) : String × Int :=
    if place - start > half then (" ... ", place - half + 5) else ("", start)
  let stop : Int := stop.getD text.length
  let (tail, last) : String × Int :=
    if stop - place > half then (" ...", place + half - 4) else ("", stop)
  let shown := (ofUnits (slice text first last)).map fun c => if c = '\t' then '→' else c
  (head ++ String.ofList shown ++ tail, place - first + head.length)

/-- A number filled up with blanks on the left. -/
def padStart (columns : Nat) (n : Int) : String :=
  let digits := toString n
  String.ofList (List.replicate (columns - digits.length) ' ') ++ digits

end Snippet

open Snippet in
/-- The lines around the unit at `offset`, on the line numbered `line`. -/
def snippet (text : List Char) (offset line : Nat) : Option String :=
  if text = [] then none
  else
    let units := text.flatMap units
    let lines := bounds 0 0 text
    let ended := (lines.filter fun l => l.2.isSome).length
    let found := (lines.findIdx? fun l => l.2.any (offset ≤ ·)).getD (lines.length - 1)
    let digits := (toString (min (line + linesAfter) ended)).length
    let room := columns - (1 + digits + 3)
    let start (i : Nat) : Nat := (lines[i]?.map (·.1)).getD 0
    let numbered (i : Nat) : String × Int :=
      let number : Int := (line : Int) + i - found + 1
      let place : Int := (offset : Int) - start found + start i
      let (shown, column) := cut units (start i) (lines[i]?.bind (·.2)) place room
      (" " ++ padStart digits number ++ " | " ++ shown, column)
    let before := (List.range found).drop (found - linesBefore)
    let after := (List.range linesAfter).filterMap fun i =>
      if found + i + 1 < ended then some (found + i + 1) else none
    let (shown, column) := numbered found
    let mark := String.ofList (List.replicate (1 + digits + 3 + column).toNat '-') ++ "^"
    some <| "\n".intercalate <|
      before.map (fun i => (numbered i).1) ++ [shown, mark] ++ after.map fun i => (numbered i).1

end GoldenRun.Yaml
