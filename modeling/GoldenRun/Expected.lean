import GoldenRun.Text.Blank
import GoldenRun.Text.Split

/-!
# Expected output

An expected-output text holds one literal line per line.  Only the line feed ends a line; nothing
inside a line is changed, so a carriage return before the line feed belongs to it.  The empty text
behind a last line feed is no line.

A blank line would be found in any output.  Under the policy `ignore` blank lines are passed over,
under `reject` the first of them is an error.
-/

namespace GoldenRun

open GoldenRun.Text

/-- What to do with a blank line of an expected output. -/
inductive BlankPolicy where
  /-- Pass over it. -/
  | ignore
  /-- Refuse the file. -/
  | reject
  deriving DecidableEq, Repr, Inhabited

namespace BlankPolicy

/-- The name of a policy. -/
def name : BlankPolicy → String
  | .ignore => "ignore"
  | .reject => "reject"

/-- The policy of a name. -/
def ofName? (name : String) : Option BlankPolicy :=
  [BlankPolicy.ignore, .reject].find? (·.name = name)

end BlankPolicy

/-- One line to be found. -/
structure ExpectedLine where
  /-- The text of the line. -/
  text : String
  /-- Its number in the file, from 1. -/
  lineNumber : Nat
  deriving DecidableEq, Repr, Inhabited

namespace Expected

/-- The lines of a text, without the empty one behind a last line feed. -/
def lines (text : List Char) : List (List Char) :=
  let pieces := split '\n' text
  if pieces.getLast? = some [] then pieces.dropLast else pieces

/-- The lines of a text with their numbers. -/
def numberedLines (text : String) : List ExpectedLine :=
  (lines text.toList).zipIdx.map fun (line, i) => ⟨String.ofList line, i + 1⟩

/-- Whether a line is blank. -/
def isBlankLine (line : ExpectedLine) : Bool := allBlank line.text.toList

/-- The lines to be found, or the number of the first blank line if it is to be refused. -/
def parse (policy : BlankPolicy) (text : String) : Except Nat (List ExpectedLine) :=
  let all := numberedLines text
  match policy, all.find? isBlankLine with
  | .reject, some line => .error line.lineNumber
  | _, _ => .ok (all.filter fun line => !isBlankLine line)

/-- The first line that a captured text does not hold. -/
def firstMissing? (captured : String) (lines : List ExpectedLine) : Option ExpectedLine :=
  lines.find? fun line => !occursIn line.text.toList captured.toList

end Expected

end GoldenRun
