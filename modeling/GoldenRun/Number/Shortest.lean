import GoldenRun.Number.Binary64

/-!
# The decimal text of a number

A number is written with the fewest significant digits that read back as the same number; of two
such texts the one nearer to the number is taken.  The search goes through the grids of one, two,
… seventeen significant digits and tries on each the two points beside the number, in exact
arithmetic.

The text is positional when the decimal point falls from six places before the first digit to
twenty-one places behind it, and has an exponent otherwise.
-/

namespace GoldenRun.Number

namespace Binary64

/-- A positive decimal `digits · 10^exponent`. -/
structure Decimal where
  /-- The digits, as a whole number. -/
  digits : Nat
  /-- The power of ten. -/
  exponent : Int
  deriving DecidableEq, Repr

/-- The exact value of a positive finite number, as a quotient. -/
def quotient (m : Nat) (e : Int) : Nat × Nat :=
  if 0 ≤ e then (m * Nat.pow 2 e.toNat, 1) else (m, Nat.pow 2 (-e).toNat)

/-- The power `n` with `10^(n-1) ≤ num / den < 10^n`, found from a guess that is too small. -/
def decimalPoint (num den : Nat) : Int :=
  let bits : Int := (num.log2 : Int) - den.log2
  let guess := bits * 30103 / 100000 - 2
  let reaches (n : Int) : Bool :=
    if 0 ≤ n then den * Nat.pow 10 n.toNat ≤ num else den ≤ num * Nat.pow 10 (-n).toNat
  guess + (((List.range 6).find? fun (i : Nat) => !reaches (guess + i)).getD 6 : Nat)

/-- The point of the grid of `10^e` at or below `num / den`, and the distance to it in units of
`1 / scale`, with the scale. -/
def gridBelow (num den : Nat) (e : Int) : Nat × Nat × Nat :=
  if 0 ≤ e then
    let d := den * Nat.pow 10 e.toNat
    (num / d, num % d, d)
  else
    let n := num * Nat.pow 10 (-e).toNat
    (n / den, n % den, den)

/-- The decimal on the grid of `count` digits that reads back as the number `x`, which is
`num / den`, if there is one. -/
def onGrid? (x : Binary64) (num den : Nat) (point : Int) (count : Nat) : Option Decimal :=
  let grid := point - count
  let (below, rest, scale) := gridBelow num den grid
  let readsBack (digits : Nat) : Bool := ofDecimal false digits grid == x
  let near := if 2 * rest ≤ scale then [below, below + 1] else [below + 1, below]
  (near.find? readsBack).map (⟨·, grid⟩)

/-- A decimal without the zeros at its end. -/
def Decimal.strip (d : Decimal) : Decimal :=
  go 20 d.digits d.exponent
where
  /-- Takes off at most `fuel` zeros. -/
  go : Nat → Nat → Int → Decimal
    | 0, n, e => ⟨n, e⟩
    | fuel + 1, n, e => if n != 0 && n % 10 == 0 then go fuel (n / 10) (e + 1) else ⟨n, e⟩

/-- The shortest decimal that reads back as the positive number `m · 2^e`. -/
def shortest (m : Nat) (e : Int) (normal : IsNormal m e) : Decimal :=
  let (num, den) := quotient m e
  let point := decimalPoint num den
  let found := (List.range 17).findSome? fun i =>
    onGrid? (.finite false m e normal) num den point (i + 1)
  (found.getD ⟨num / den, 0⟩).strip

/-- The text of a positive decimal. -/
def Decimal.text (d : Decimal) : String :=
  let digits := Nat.toDigits 10 d.digits
  let count := digits.length
  let point : Int := d.exponent + count
  if count ≤ point ∧ point ≤ 21 then
    String.ofList (digits ++ List.replicate (point - count).toNat '0')
  else if 0 < point ∧ point ≤ 21 then
    String.ofList (digits.take point.toNat ++ '.' :: digits.drop point.toNat)
  else if -6 < point ∧ point ≤ 0 then
    String.ofList ('0' :: '.' :: (List.replicate (-point).toNat '0' ++ digits))
  else
    let power := point - 1
    let mark := (if power < 0 then ['e', '-'] else ['e', '+']) ++ Nat.toDigits 10 power.natAbs
    match digits with
    | [] => ""
    | [d] => String.ofList (d :: mark)
    | d :: rest => String.ofList (d :: '.' :: (rest ++ mark))

/-- The text of a number; both zeros are written `0`. -/
def text : Binary64 → String
  | .nan => "NaN"
  | .infinity negative => if negative then "-Infinity" else "Infinity"
  | .finite negative m e normal =>
    if m = 0 then "0"
    else (if negative then "-" else "") ++ (shortest m e normal).text

end Binary64

end GoldenRun.Number
