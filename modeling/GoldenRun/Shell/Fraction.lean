import GoldenRun.Number.Numeral
import GoldenRun.Number.Shortest
import GoldenRun.Shell.Arithmetic

/-!
# Numbers with a fraction

`Fraction.read` reads the number at the beginning of an argument: a decimal, a numeral in base
sixteen with a power of two, an infinity, or what is not a number.

`Fraction.write` writes a number with a count of digits.  The digits are those of the exact value,
rounded once; a tie goes to the even digit.
-/

namespace GoldenRun.Shell

open GoldenRun.Number

namespace Fraction

/-- A number that was read. -/
structure Reading where
  /-- Whether it has a minus sign. -/
  negative : Bool
  /-- The number without its sign. -/
  magnitude : Binary64
  /-- Whether the number is near to what is written, and neither too great nor too small. -/
  inRange : Bool := true
  /-- What comes behind it. -/
  rest : List Char

/-- The number nearest to a quotient, and whether it is near enough: what is too small to have all
its digits has to be exact. -/
def ofQuotient (num den : Nat) : Binary64 × Bool :=
  let x := Binary64.ofRatio false num den
  let inRange := match x with
    | .finite _ m e _ =>
      Nat.pow 2 52 ≤ m || num * Nat.pow 2 (-e).toNat = m * den
    | _ => false
  (x, inRange)

/-- The number nearest to `n · base^power`, and whether it is near enough.  Beyond the range of
numbers the powers are not computed. -/
def ofPower (base n : Nat) (power : Int) : Binary64 × Bool :=
  let size : Int := (Nat.log2 n : Nat)
  let few : Int := (Nat.log2 base : Nat)
  let (least, most) := if 0 ≤ power then (few, few + 1) else (few + 1, few)
  if n = 0 then (.zero false, true)
  else if 2000 < size + power * least then (.infinity false, false)
  else if size + power * most < -2000 then (.zero false, false)
  else if 0 ≤ power then ofQuotient (n * Nat.pow base power.toNat) 1
  else ofQuotient n (Nat.pow base (-power).toNat)

/-- The digits at the beginning of a text, with the number of them that stand behind a point, and
what comes behind them. -/
def takeDigits (base : Nat) (s : List Char) : List Char × Nat × List Char :=
  let whole := s.takeWhile (isDigitOf base)
  match s.drop whole.length with
  | '.' :: rest =>
    let fraction := rest.takeWhile (isDigitOf base)
    if whole = [] && fraction = [] then ([], 0, s)
    else (whole ++ fraction, fraction.length, rest.drop fraction.length)
  | rest => (whole, 0, rest)

/-- The power behind some digits, if the letter and a digit are there, and what comes behind it. -/
def takePower (letter : Char) (s : List Char) : Int × List Char :=
  match s with
  | c :: rest =>
    let (down, rest) := takeSign rest
    let run := rest.takeWhile (isDigitOf 10)
    if c.toLower = letter && run ≠ [] then
      let n : Int := digitsValue 10 run
      (if down then -n else n, rest.drop run.length)
    else (0, s)
  | [] => (0, [])

/-- Whether a text begins with a word, in letters of either case. -/
def startsWith (word : String) (s : List Char) : Bool :=
  word.toList.isPrefixOf (s.map Char.toLower)

/-- What comes behind a word for what is not a number: it can have a note in parentheses. -/
def behindNote (s : List Char) : List Char :=
  match s with
  | '(' :: rest =>
    match rest.dropWhile inName with
    | ')' :: behind => behind
    | _ => s
  | _ => s

/-- The number at the beginning of a text. -/
def read (s : List Char) : Option Reading :=
  let (negative, s) := takeSign (Arithmetic.skip s)
  if startsWith "infinity" s then
    some { negative, magnitude := .infinity false, rest := s.drop 8 }
  else if startsWith "inf" s then
    some { negative, magnitude := .infinity false, rest := s.drop 3 }
  else if startsWith "nan" s then
    some { negative, magnitude := .nan, rest := behindNote (s.drop 3) }
  else
    let (hex, places, behind) := takeDigits 16 (s.drop 2)
    if startsWith "0x" s && hex ≠ [] then
      let (power, rest) := takePower 'p' behind
      let (magnitude, inRange) := ofPower 2 (digitsValue 16 hex) (power - 4 * places)
      some { negative, magnitude, inRange, rest }
    else
      let (decimal, places, behind) := takeDigits 10 s
      if decimal = [] then none
      else
        let (power, rest) := takePower 'e' behind
        let (magnitude, inRange) := ofPower 10 (digitsValue 10 decimal) (power - places)
        some { negative, magnitude, inRange, rest }

/-! ## Writing -/

/-- How a number is written. -/
structure Style where
  /-- How: `f` with a count of places, `e` with a power of ten, `g` in the shorter one of the two,
  `a` in base sixteen. -/
  kind : Char
  /-- Whether all letters are capitals. -/
  capitals : Bool
  /-- Whether the point is always written, and zeros at the end are kept. -/
  full : Bool
  /-- The count of digits. -/
  precision : Option Nat

/-- A text with zeros in front, of at least a number of characters. -/
def zeroed (count : Nat) (s : List Char) : List Char := List.replicate (count - s.length) '0' ++ s

/-- Digits with a point behind the first ones. -/
def pointed (full : Bool) (whole fraction : List Char) : List Char :=
  if fraction = [] && !full then whole else whole ++ '.' :: fraction

/-- The digits of `m · 2^e` with a number of places, the whole ones first. -/
def fixedDigits (m : Nat) (e : Int) (places : Nat) : List Char × List Char :=
  let (num, den) := Binary64.quotient m e
  let n := Binary64.divideToEven (num * Nat.pow 10 places) den
  let digits := zeroed (places + 1) (Nat.toDigits 10 n)
  (digits.take (digits.length - places), digits.drop (digits.length - places))

/-- The first digits of `m · 2^e`, one more than the number of places, and the power of ten of the
first one. -/
def firstDigits (m : Nat) (e : Int) (places : Nat) : List Char × Int :=
  if m = 0 then (List.replicate (places + 1) '0', 0)
  else
    let (num, den) := Binary64.quotient m e
    let power := Binary64.decimalPoint num den - 1
    let shift := places - power
    let n :=
      if 0 ≤ shift then Binary64.divideToEven (num * Nat.pow 10 shift.toNat) den
      else Binary64.divideToEven num (den * Nat.pow 10 (-shift).toNat)
    if n = Nat.pow 10 (places + 1) then (Nat.toDigits 10 (n / 10), power + 1)
    else (Nat.toDigits 10 n, power)

/-- A power with its letter, its sign, and at least a number of digits. -/
def powerText (letter : Char) (count : Nat) (power : Int) : List Char :=
  letter :: (if power < 0 then '-' else '+') :: zeroed count (Nat.toDigits 10 power.natAbs)

/-- A text without the zeros at its end. -/
def dropZeros (s : List Char) : List Char := (s.reverse.dropWhile (· = '0')).reverse

/-- The text of `m · 2^e` in base sixteen, behind the mark of the base. -/
def hexText (full : Bool) (precision : Option Nat) (m : Nat) (e : Int) : List Char :=
  let power := if m = 0 then 0 else e + 52
  let places := precision.getD 13
  let n :=
    if places < 13 then Binary64.divideToEven m (Nat.pow 16 (13 - places))
    else m * Nat.pow 16 (places - 13)
  let digits := zeroed (places + 1) (Nat.toDigits 16 n)
  let fraction := digits.drop 1
  let fraction := if precision.isNone then dropZeros fraction else fraction
  pointed full (digits.take 1) fraction ++ powerText 'p' 1 power

/-- The text of `m · 2^e`. -/
def finiteText (style : Style) (m : Nat) (e : Int) : List Char :=
  let count := style.precision.getD 6
  let withPower (fraction : List Char → List Char) (digits : List Char) (power : Int) : List Char :=
    pointed style.full (digits.take 1) (fraction (digits.drop 1)) ++ powerText 'e' 2 power
  match style.kind with
  | 'f' =>
    let (whole, fraction) := fixedDigits m e count
    pointed style.full whole fraction
  | 'e' =>
    let (digits, power) := firstDigits m e count
    withPower id digits power
  | 'g' =>
    let count := max count 1
    let (digits, power) := firstDigits m e (count - 1)
    let kept (fraction : List Char) : List Char :=
      if style.full then fraction else dropZeros fraction
    if -4 ≤ power && power < count then
      let (whole, fraction) := fixedDigits m e ((count : Int) - 1 - power).toNat
      pointed style.full whole (kept fraction)
    else withPower kept digits power
  | _ => hexText style.full style.precision m e

/-- The text of a number without its sign: the mark of its base, and what comes behind the zeros
that can fill up between the two. -/
def write (style : Style) (x : Binary64) : List Char × List Char :=
  let capital (s : List Char) : List Char := if style.capitals then s.map Char.toUpper else s
  match x with
  | .nan => ([], capital "nan".toList)
  | .infinity _ => ([], capital "inf".toList)
  | .finite _ m e _ =>
    (capital (if style.kind = 'a' then "0x".toList else []), capital (finiteText style m e))

end Fraction

end GoldenRun.Shell
