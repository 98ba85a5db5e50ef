import GoldenRun.Number.Binary64
import GoldenRun.Text.Blank

/-!
# Numerals

A numeral is what a command line or a document may write for a number: a decimal with an optional
fraction and power of ten, or a whole number in base sixteen, eight or two behind `0x`, `0o` or
`0b`.  `readNumeral` takes a whole text, with blanks around it, and answers not-a-number for
everything else; a text of blanks alone is zero.
-/

namespace GoldenRun.Number

open GoldenRun.Text

/-- The value of a digit of any base up to sixteen. -/
def digitValue? (c : Char) : Option Nat :=
  if '0' ≤ c ∧ c ≤ '9' then some (c.toNat - '0'.toNat)
  else if 'a' ≤ c ∧ c ≤ 'f' then some (c.toNat - 'a'.toNat + 10)
  else if 'A' ≤ c ∧ c ≤ 'F' then some (c.toNat - 'A'.toNat + 10)
  else none

/-- Whether a character is a digit of a base up to sixteen. -/
def isDigitOf (base : Nat) (c : Char) : Bool :=
  match digitValue? c with
  | some v => v < base
  | none => false

/-- The value of a run of digits. -/
def digitsValue (base : Nat) (digits : List Char) : Nat :=
  digits.foldl (fun n c => n * base + (digitValue? c).getD 0) 0

/-- An optional sign, and what follows it. -/
def takeSign : List Char → Bool × List Char
  | '+' :: rest => (false, rest)
  | '-' :: rest => (true, rest)
  | rest => (false, rest)

/-- The longest decimal at the beginning of a text, with the text behind it: digits, a fraction,
and a power of ten if it has digits.  At least one digit must stand before the power. -/
def takeDecimal (text : List Char) : Option (Binary64 × List Char) :=
  let (negative, body) := takeSign text
  let whole := body.takeWhile (isDigitOf 10)
  let rest := body.dropWhile (isDigitOf 10)
  let (fraction, rest) := match rest with
    | '.' :: r => (r.takeWhile (isDigitOf 10), r.dropWhile (isDigitOf 10))
    | r => ([], r)
  if whole.isEmpty && fraction.isEmpty then none
  else
    let (power, rest) := match rest with
      | c :: r =>
        let (down, digits) := takeSign r
        let run := digits.takeWhile (isDigitOf 10)
        if (c = 'e' ∨ c = 'E') ∧ run ≠ [] then
          let n : Int := digitsValue 10 run
          (if down then -n else n, digits.dropWhile (isDigitOf 10))
        else (0, rest)
      | [] => (0, [])
    some (.ofDecimal negative (digitsValue 10 (whole ++ fraction)) (power - fraction.length), rest)

/-- The number a whole text denotes, blanks around it aside. -/
def readNumeral (text : String) : Binary64 :=
  let body := trim text.toList
  let inBase (base : Nat) (digits : List Char) : Binary64 :=
    if digits ≠ [] ∧ digits.all (isDigitOf base) then .ofNat (digitsValue base digits) else .nan
  match body with
  | [] => .zero false
  | '0' :: 'x' :: digits => inBase 16 digits
  | '0' :: 'X' :: digits => inBase 16 digits
  | '0' :: 'o' :: digits => inBase 8 digits
  | '0' :: 'O' :: digits => inBase 8 digits
  | '0' :: 'b' :: digits => inBase 2 digits
  | '0' :: 'B' :: digits => inBase 2 digits
  | _ =>
    let (negative, rest) := takeSign body
    if rest = "Infinity".toList then .infinity negative
    else match takeDecimal body with
      | some (x, []) => x
      | _ => .nan

/-- The whole number at the beginning of a text, blanks before it aside; in base sixteen behind
`0x` where that is allowed. -/
def leadingWhole (hexadecimal : Bool) (text : String) : Binary64 :=
  let (negative, body) := takeSign (text.toList.dropWhile isBlank)
  let (base, digits) := match body with
    | '0' :: 'x' :: rest | '0' :: 'X' :: rest => if hexadecimal then (16, rest) else (10, body)
    | _ => (10, body)
  let run := digits.takeWhile (isDigitOf base)
  if run = [] then .nan else .ofRatio negative (digitsValue base run) 1

/-- The decimal at the beginning of a text, blanks before it aside. -/
def leadingDecimal (text : String) : Binary64 :=
  let body := text.toList.dropWhile isBlank
  let (negative, rest) := takeSign body
  if rest.take 8 = "Infinity".toList then .infinity negative
  else match takeDecimal body with
    | some (x, _) => x
    | none => .nan

end GoldenRun.Number
