/-!
# Double-precision numbers

A number is a sign with a mantissa and a power of two, an infinity, or not a number.  Every
finite number has one form (`IsNormal`): the mantissa is below 2^53, and it is at least 2^52 unless
the exponent is the least one.

`ofRatio` rounds an exact quotient to the nearest such number, a tie going to the even mantissa;
all reading of numerals goes through it, so no step works with rounded values.
-/

namespace GoldenRun.Number

/-- The least exponent of a finite number. -/
def leastExponent : Int := -1074

/-- The greatest exponent of a finite number. -/
def greatestExponent : Int := 971

/-- Whether `mantissa · 2^exponent` is the one form of a finite number. -/
def IsNormal (mantissa : Nat) (exponent : Int) : Prop :=
  mantissa < Nat.pow 2 53 ∧ (Nat.pow 2 52 ≤ mantissa ∨ exponent = leastExponent) ∧
    leastExponent ≤ exponent ∧ exponent ≤ greatestExponent

instance (mantissa : Nat) (exponent : Int) : Decidable (IsNormal mantissa exponent) :=
  inferInstanceAs (Decidable (_ ∧ _))

/-- A number of the IEEE 754 format binary64. -/
inductive Binary64 where
  /-- Not a number. -/
  | nan
  /-- An infinity. -/
  | infinity (negative : Bool)
  /-- `± mantissa · 2^exponent`. -/
  | finite (negative : Bool) (mantissa : Nat) (exponent : Int)
    (normal : IsNormal mantissa exponent)
  deriving DecidableEq, Repr, Inhabited

namespace Binary64

/-- Zero of either sign. -/
def zero (negative : Bool) : Binary64 := .finite negative 0 leastExponent (by decide)

/-- `num / den` rounded to the nearest whole number, a tie going to the even one. -/
def divideToEven (num den : Nat) : Nat :=
  let q := num / den
  let r := num % den
  if 2 * r < den then q
  else if den < 2 * r then q + 1
  else q + q % 2

/-- `num / (den · 2^e)` rounded to the nearest whole number, a tie going to the even one. -/
def scaled (num den : Nat) (e : Int) : Nat :=
  if 0 ≤ e then divideToEven num (den * Nat.pow 2 e.toNat)
  else divideToEven (num * Nat.pow 2 (-e).toNat) den

/-- Whether `num / den` is at least `2^e`. -/
def atLeastPower (num den : Nat) (e : Int) : Bool :=
  if 0 ≤ e then den * Nat.pow 2 e.toNat ≤ num else den ≤ num * Nat.pow 2 (-e).toNat

/-- The greatest `e` with `2^e ≤ num / den`. -/
def log2Ratio (num den : Nat) : Int :=
  let guess : Int := (num.log2 : Int) - den.log2
  if atLeastPower num den guess then guess else guess - 1

/-- The number nearest to `± num / den`.  What would need an exponent above the greatest one is an
infinity. -/
def ofRatio (negative : Bool) (num den : Nat) : Binary64 :=
  if num = 0 then zero negative
  else if den = 0 then .infinity negative
  else
    let e := max (log2Ratio num den - 52) leastExponent
    let m := scaled num den e
    let (m, e) := if m = Nat.pow 2 53 then (Nat.pow 2 52, e + 1) else (m, e)
    if h : IsNormal m e then .finite negative m e h else .infinity negative

/-- The number nearest to a whole number. -/
def ofNat (n : Nat) : Binary64 := ofRatio false n 1

/-- The number nearest to `± digits · 10^exponent`.  Beyond the range of the format the powers
of ten are not computed. -/
def ofDecimal (negative : Bool) (digits : Nat) (exponent : Int) : Binary64 :=
  if digits = 0 then zero negative
  else if 400 < exponent then .infinity negative
  else if exponent + ((Nat.log2 digits : Nat) : Int) / 3 + 1 < -400 then zero negative
  else if 0 ≤ exponent then ofRatio negative (digits * Nat.pow 10 exponent.toNat) 1
  else ofRatio negative digits (Nat.pow 10 (-exponent).toNat)

/-- The number with the other sign. -/
def negate : Binary64 → Binary64
  | .nan => .nan
  | .infinity s => .infinity !s
  | .finite s m e h => .finite (!s) m e h

/-- The number nearest to the sum of two numbers.  Two zeros of different signs, and two opposite
numbers, make the zero without a sign. -/
def add : Binary64 → Binary64 → Binary64
  | .nan, _ | _, .nan => .nan
  | .infinity s, .infinity t => if s = t then .infinity s else .nan
  | .infinity s, _ | _, .infinity s => .infinity s
  | .finite s m e _, .finite t n f _ =>
    let least := min e f
    let term (negative : Bool) (mantissa : Nat) (exponent : Int) : Int :=
      let size : Int := (mantissa * Nat.pow 2 (exponent - least).toNat : Nat)
      if negative then -size else size
    let sum := term s m e + term t n f
    if sum = 0 then zero (s && t)
    else if 0 ≤ least then ofRatio (sum < 0) (sum.natAbs * Nat.pow 2 least.toNat) 1
    else ofRatio (sum < 0) sum.natAbs (Nat.pow 2 (-least).toNat)

/-- Whether the number is neither infinite nor not a number. -/
def isFinite : Binary64 → Bool
  | .finite .. => true
  | _ => false

/-- Whether the number is a zero of either sign. -/
def isZero : Binary64 → Bool
  | .finite _ m _ _ => m = 0
  | _ => false

/-- Whether the number is the zero with a minus sign. -/
def isNegativeZero : Binary64 → Bool
  | .finite s m _ _ => s && m = 0
  | _ => false

/-- Whether the number is below zero. -/
def isNegative : Binary64 → Bool
  | .nan => false
  | .infinity s => s
  | .finite s m _ _ => s && m != 0

/-- The magnitude of a number that has no fraction. -/
def wholeMagnitude? : Binary64 → Option Nat
  | .finite _ m e _ =>
    if 0 ≤ e then some (m * Nat.pow 2 e.toNat)
    else if m % Nat.pow 2 (-e).toNat = 0 then some (m / Nat.pow 2 (-e).toNat)
    else none
  | _ => none

/-- Whether the number is finite and has no fraction. -/
def isWhole (x : Binary64) : Bool := x.wholeMagnitude?.isSome

end Binary64

end GoldenRun.Number
