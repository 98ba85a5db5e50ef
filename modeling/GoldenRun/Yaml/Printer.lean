import GoldenRun.Number.Shortest
import GoldenRun.Yaml.ScalarText

/-!
# Writing a document

A value is written in block style, with two blanks for each level.  An item of a sequence that is
a collection begins on the line of its hyphen; the value of an entry that is a collection begins on
the next line.  Empty collections are written as brackets.
-/

namespace GoldenRun.Yaml

open GoldenRun.Number GoldenRun.Text

/-- Whether a text begins with digits and an exponent. -/
def lacksPoint (text : List Char) : Bool :=
  let body := (takeSign text).2
  body.head?.any Char.isDigit && (body.dropWhile Char.isDigit).head? = some 'e'

/-- A number as a scalar.  A fraction in exponential form has a point. -/
def numberText (x : Binary64) : List Char :=
  match x with
  | .nan => ".nan".toList
  | .infinity negative => (if negative then "-.inf" else ".inf").toList
  | .finite .. =>
    if x.isNegativeZero then "-0.0".toList
    else
      let text := x.text.toList
      if !x.isWhole && lacksPoint text then
        text.takeWhile (· ≠ 'e') ++ '.' :: text.dropWhile (· ≠ 'e')
      else text

/-- Three bytes or fewer as four digits in base sixty-four. -/
def base64Group (bytes : List UInt8) : List Char :=
  let at_ (i : Nat) : Nat := (bytes[i]?.map UInt8.toNat).getD 0
  let n := (at_ 0 * 256 + at_ 1) * 256 + at_ 2
  let digit (i : Nat) : Char := base64Digits[n / Nat.pow 64 (3 - i) % 64]?.getD '='
  (List.range 4).map fun i => if i ≤ bytes.length then digit i else '='

/-- Bytes in base sixty-four. -/
def base64Text : List UInt8 → List Char
  | a :: b :: c :: rest => base64Group [a, b, c] ++ base64Text rest
  | [] => []
  | bytes => base64Group bytes

/-- The beginning of a new line at a level. -/
def newLine (level : Nat) : List Char := '\n' :: List.replicate (indentWidth * level) ' '

/-- A text behind a mark, with a blank between them unless the text begins a new line. -/
def marked (mark : Char) (text : List Char) : List Char :=
  if text.head? = some '\n' then mark :: text else mark :: ' ' :: text

/-- The longest key that stands on the line of its value. -/
def longestKey : Nat := 1024

mutual

/-- A value at a level.  A compact one begins on the line where it stands. -/
def nodeText (level : Nat) (compact : Bool) : Value → List Char
  | .null => "null".toList
  | .bool b => (if b then "true" else "false").toList
  | .number x => numberText x
  | .string s => scalarText false level s
  | .list [] => "[]".toList
  | .list (v :: rest) => itemsText level compact (v :: rest)
  | .map [] => "{}".toList
  | .map (e :: rest) => entriesText level compact (e :: rest)
  | .date t => (Calendar.sortableText t).toList
  | .binary bytes =>
    "!!binary ".toList ++ scalarText false level (String.ofList (base64Text bytes))

/-- The items of a sequence at a level. -/
def itemsText (level : Nat) (compact : Bool) : List Value → List Char
  | [] => []
  | v :: rest =>
    (if compact then [] else newLine level) ++ marked '-' (nodeText (level + 1) true v) ++
      itemsText level false rest

/-- The entries of a mapping at a level. -/
def entriesText (level : Nat) (compact : Bool) : List (String × Value) → List Char
  | [] => []
  | (k, v) :: rest =>
    let key := scalarText true (level + 1) k
    let explicit := longestKey < width key
    (if compact then [] else newLine level) ++
      (if explicit then marked '?' key ++ newLine level else key) ++
      marked ':' (nodeText (level + 1) explicit v) ++ entriesText level false rest

end

/-- The text of a document. -/
def dump (v : Value) : String := String.ofList (nodeText 0 true v ++ ['\n'])

end GoldenRun.Yaml
