import GoldenRun.Shell.Cursor

/-!
# Arithmetic in scripts

An expression is made of whole numbers, variables and the operators of the language C; numbers
have sixty-four bits and wrap around.  A variable has the value of the numeral it holds, 0 if it
holds nothing.

`symbols` cuts a text into its symbols, and `evaluate` reads them once from left to right and
computes on the way.  So a fault of a value that stands before a fault of the form comes first.
What a logical operator or a condition skips is read, but it has no effect and no value.

`leading` reads the numeral at the beginning of a text; commands of the shell that take numbers use
it too.
-/

namespace GoldenRun.Shell

/-- The operators with two sides, assignments and logical ones apart. -/
inductive Operator where
  | multiply | divide | remainder | add | subtract | shiftLeft | shiftRight
  | less | lessOrEqual | greater | greaterOrEqual | equal | different | bitAnd | bitXor | bitOr
  deriving DecidableEq, Repr

/-- What is wrong with an expression. -/
inductive ArithmeticFault where
  /-- An operand is missing. -/
  | missingOperand
  /-- A parenthesis is not closed. -/
  | missingParenthesis
  /-- A condition has no second value. -/
  | missingColon
  /-- Something stands where an operator or the end belongs. -/
  | unexpected
  /-- Something divides by zero. -/
  | divisionByZero
  /-- A variable holds no number. -/
  | badNumber (text : String)
  deriving DecidableEq, Repr

/-- The message of a fault. -/
def ArithmeticFault.message (expression : String) (fault : ArithmeticFault) : String :=
  let tell (what : String) : String :=
    "arithmetic expression: " ++ what ++ ": \"" ++ expression ++ "\""
  match fault with
  | .missingOperand => tell "expecting primary"
  | .missingParenthesis => tell "expecting ')'"
  | .missingColon => tell "expecting ':'"
  | .unexpected => tell "expecting EOF"
  | .divisionByZero => tell "division by zero"
  | .badNumber text => "Illegal number: " ++ text

namespace Arithmetic

/-! ## Numerals -/

/-- Whether a character may stand around a number. -/
def isBlank (c : Char) : Bool := " \t\n\r\x0b\x0c".toList.contains c

/-- A text without the blanks at its beginning. -/
def skip (s : List Char) : List Char := s.dropWhile isBlank

/-- The value of a digit. -/
def digit? (base : Nat) (c : Char) : Option Nat :=
  let n := if c.isDigit then c.toNat - 0x30
    else if 'a' ≤ c && c ≤ 'f' then c.toNat - 0x61 + 10
    else if 'A' ≤ c && c ≤ 'F' then c.toNat - 0x41 + 10
    else 99
  if n < base then some n else none

/-- The value of some digits, and what comes behind them. -/
def digits (base value : Nat) : List Char → Nat × List Char
  | [] => (value, [])
  | c :: rest =>
    match digit? base c with
    | some d => digits base (value * base + d) rest
    | none => (value, c :: rest)

/-- The numeral that is next: decimal, octal behind `0`, or hexadecimal behind `0x`. -/
def numeral? : List Char → Option (Nat × List Char)
  | '0' :: x :: c :: rest =>
    if (x = 'x' || x = 'X') && (digit? 16 c).isSome then some (digits 16 0 (c :: rest))
    else some (digits 8 0 (x :: c :: rest))
  | c :: rest =>
    if c = '0' then some (digits 8 0 rest)
    else if c.isDigit then some (digits 10 0 (c :: rest))
    else none
  | [] => none

/-- The decimal numeral that is next. -/
def decimal? (s : List Char) : Option (Nat × List Char) :=
  if (s.head?.any Char.isDigit) then some (digits 10 0 s) else none

/-- The number at the beginning of a text, blanks before it and a sign included, and what comes
behind it; `numeral?` says which numerals there are. -/
def leading (numeral? : List Char → Option (Nat × List Char)) (s : List Char) :
    Option (Int × List Char) :=
  match skip s with
  | '-' :: rest => (numeral? rest).map fun (n, rest) => (-(n : Int), rest)
  | '+' :: rest => (numeral? rest).map fun (n, rest) => ((n : Int), rest)
  | rest => (numeral? rest).map fun (n, rest) => ((n : Int), rest)

/-- The least number. -/
def least : Int := -0x8000000000000000

/-- The greatest number. -/
def greatest : Int := 0x7fffffffffffffff

/-- Whether sixty-four bits can hold a number. -/
def fits (n : Int) : Bool := least ≤ n && n ≤ greatest

/-- The number that a variable with this text holds; a text of blanks is 0. -/
def ofText? (text : String) : Option Int :=
  match leading numeral? text.toList with
  | some (n, rest) => if fits n && skip rest = [] then some n else none
  | none => if skip text.toList = [] then some 0 else none

/-! ## Symbols -/

/-- A symbol of an expression. -/
inductive Symbol where
  /-- A number. -/
  | number (value : Int)
  /-- A variable. -/
  | name (name : String)
  /-- An operator with two sides; the ones for sums are also signs. -/
  | operator (operator : Operator)
  /-- An assignment, perhaps with an operator for the old value. -/
  | assignment (operator : Option Operator)
  /-- The operator whose sides both have to hold. -/
  | both
  /-- The operator of which one side has to hold. -/
  | either
  /-- A mark: one of `!~()?:`. -/
  | mark (c : Char)
  /-- Something else. -/
  | strange
  deriving DecidableEq, Repr, Inhabited

/-- The symbols that are written with signs; where one text begins another, the longer one stands
first. -/
def signs : List (String × Symbol) :=
  [("<<=", .assignment (some .shiftLeft)), (">>=", .assignment (some .shiftRight)),
    ("+=", .assignment (some .add)), ("-=", .assignment (some .subtract)),
    ("*=", .assignment (some .multiply)), ("/=", .assignment (some .divide)),
    ("%=", .assignment (some .remainder)), ("&=", .assignment (some .bitAnd)),
    ("^=", .assignment (some .bitXor)), ("|=", .assignment (some .bitOr)),
    ("==", .operator .equal), ("!=", .operator .different), ("<=", .operator .lessOrEqual),
    (">=", .operator .greaterOrEqual), ("<<", .operator .shiftLeft), (">>", .operator .shiftRight),
    ("&&", .both), ("||", .either), ("=", .assignment none), ("<", .operator .less),
    (">", .operator .greater), ("+", .operator .add), ("-", .operator .subtract),
    ("*", .operator .multiply), ("/", .operator .divide), ("%", .operator .remainder),
    ("&", .operator .bitAnd), ("^", .operator .bitXor), ("|", .operator .bitOr), ("!", .mark '!'),
    ("~", .mark '~'), ("(", .mark '('), (")", .mark ')'), ("?", .mark '?'), (":", .mark ':')]

/-- The symbols of a text, of at most a number of characters; a number that is too great is the
greatest one.  What is strange ends the text. -/
def symbols : Nat → List Char → List Symbol
  | 0, _ => []
  | _ + 1, [] => []
  | n + 1, c :: rest =>
    if c = ' ' || c = '\t' || c = '\n' then symbols n rest
    else match numeral? (c :: rest) with
      | some (value, rest) => .number (min value greatest) :: symbols n rest
      | none =>
        let name := (c :: rest).takeWhile inName
        if isName name then
          .name (String.ofList name) :: symbols n ((c :: rest).drop name.length)
        else match signs.find? fun sign => sign.1.toList.isPrefixOf (c :: rest) with
          | some (text, symbol) => symbol :: symbols n ((c :: rest).drop text.length)
          | none => [.strange]

/-! ## Values -/

/-- A number in sixty-four bits. -/
def wrap (n : Int) : Int := n.bmod 0x10000000000000000

/-- 1 or 0. -/
def ofBool (b : Bool) : Int := if b then 1 else 0

/-- The bits of a number. -/
def bits (n : Int) : BitVec 64 := BitVec.ofInt 64 n

/-- The rank of an operator: one of a lower rank binds more closely. -/
def rank : Operator → Nat
  | .multiply | .divide | .remainder => 0
  | .add | .subtract => 1
  | .shiftLeft | .shiftRight => 2
  | .less | .lessOrEqual | .greater | .greaterOrEqual => 3
  | .equal | .different => 4
  | .bitAnd => 5
  | .bitXor => 6
  | .bitOr => 7

/-- A rank above the ranks of all operators. -/
def topRank : Nat := 8

/-- The value of an operation. -/
def operate (o : Operator) (x y : Int) : Except ArithmeticFault Int :=
  match o with
  | .multiply => .ok (wrap (x * y))
  | .divide => if y = 0 then .error .divisionByZero else .ok (wrap (x.tdiv y))
  | .remainder => if y = 0 then .error .divisionByZero else .ok (wrap (x.tmod y))
  | .add => .ok (wrap (x + y))
  | .subtract => .ok (wrap (x - y))
  | .shiftLeft => .ok (bits x <<< (y.emod 64).toNat).toInt
  | .shiftRight => .ok ((bits x).sshiftRight (y.emod 64).toNat).toInt
  | .less => .ok (ofBool (x < y))
  | .lessOrEqual => .ok (ofBool (x ≤ y))
  | .greater => .ok (ofBool (y < x))
  | .greaterOrEqual => .ok (ofBool (y ≤ x))
  | .equal => .ok (ofBool (x = y))
  | .different => .ok (ofBool (x ≠ y))
  | .bitAnd => .ok (bits x &&& bits y).toInt
  | .bitXor => .ok (bits x ^^^ bits y).toInt
  | .bitOr => .ok (bits x ||| bits y).toInt

/-! ## Evaluation -/

/-- Values that were given to variables. -/
abbrev Changes := List (String × Int)

/-- How far an evaluation has come. -/
structure Progress where
  /-- The symbols that are left. -/
  symbols : List Symbol
  /-- The changes so far, the latest in front. -/
  changes : Changes := []

/-- A part of an evaluation. -/
abbrev Evaluation (α : Type) := StateT Progress (Except ArithmeticFault) α

/-- The symbol that is next, if there is one. -/
def peek : Evaluation (Option Symbol) := return (← get).symbols.head?

/-- Goes behind some symbols. -/
def advance (count : Nat) : Evaluation Unit :=
  modify fun p => { p with symbols := p.symbols.drop count }

/-- Goes behind a mark, which has to be next. -/
def demand (c : Char) (fault : ArithmeticFault) : Evaluation Unit := do
  if (← peek) = some (.mark c) then advance 1 else throw fault

/-- The value of a variable; `before` holds the variables before the evaluation. -/
def lookUp (before : String → Option String) (name : String) : Evaluation Int := do
  match (← get).changes.find? (·.1 = name) with
  | some (_, value) => return value
  | none =>
    let text := (before name).getD ""
    match ofText? text with
    | some value => return value
    | none => throw (.badNumber text)

mutual

/-- The value of an expression, assignments included; `live` says that it is not skipped. -/
def assignment (before : String → Option String) : Nat → Bool → Evaluation Int
  | 0, _ => throw .missingOperand
  | n + 1, live => do
    match (← get).symbols with
    | .name name :: .assignment operator :: _ =>
      advance 2
      let value ← assignment before n live
      if !live then return value
      let new ← match operator with
        | none => pure value
        | some o => operate o (← lookUp before name) value
      modify fun p => { p with changes := (name, new) :: p.changes }
      return new
    | _ => condition before n live

/-- The value of a condition, or of what can stand in its place. -/
def condition (before : String → Option String) : Nat → Bool → Evaluation Int
  | 0, _ => throw .missingOperand
  | n + 1, live => do
    let test ← alternatives before n live
    if (← peek) ≠ some (.mark '?') then return test
    advance 1
    let yes ← assignment before n (live && test ≠ 0)
    demand ':' .missingColon
    let no ← condition before n (live && test = 0)
    return if test ≠ 0 then yes else no

/-- The value of alternatives. -/
def alternatives (before : String → Option String) : Nat → Bool → Evaluation Int
  | 0, _ => throw .missingOperand
  | n + 1, live => do
    let x ← conjunction before n live
    if (← peek) ≠ some .either then return x
    advance 1
    let y ← alternatives before n (live && x = 0)
    return ofBool (x ≠ 0 || y ≠ 0)

/-- The value of a conjunction. -/
def conjunction (before : String → Option String) : Nat → Bool → Evaluation Int
  | 0, _ => throw .missingOperand
  | n + 1, live => do
    let x ← operand before n live
    let x ← operations before n live topRank x
    if (← peek) ≠ some .both then return x
    advance 1
    let y ← conjunction before n (live && x ≠ 0)
    return ofBool (x ≠ 0 && y ≠ 0)

/-- The value of what operators of a rank below `limit` make of a first operand. -/
def operations (before : String → Option String) : Nat → Bool → Nat → Int → Evaluation Int
  | 0, _, _, _ => throw .missingOperand
  | n + 1, live, limit, x => do
    match ← peek with
    | some (.operator o) =>
      if limit ≤ rank o then return x
      advance 1
      let y ← operand before n live
      let y ← operations before n live (rank o) y
      let x ← if live then operate o x y else pure y
      operations before n live limit x
    | _ => return x

/-- The value of an operand with its signs. -/
def operand (before : String → Option String) : Nat → Bool → Evaluation Int
  | 0, _ => throw .missingOperand
  | n + 1, live => do
    let symbol ← peek
    advance 1
    match symbol with
    | some (.number value) => return value
    | some (.name name) => if live then lookUp before name else return 0
    | some (.operator .add) => operand before n live
    | some (.operator .subtract) => return wrap (-(← operand before n live))
    | some (.mark '!') => return ofBool ((← operand before n live) = 0)
    | some (.mark '~') => return -(← operand before n live) - 1
    | some (.mark '(') =>
      let x ← assignment before n live
      demand ')' .missingParenthesis
      return x
    | _ => throw .missingOperand

end

/-- The value of an expression in its text, and the changes it makes, the first in front. -/
def evaluate (before : String → Option String) (text : List Char) :
    Except ArithmeticFault (Int × Changes) := do
  let all := symbols (text.length + 1) text
  let (value, p) ← (assignment before (20 * all.length + 100) true).run { symbols := all }
  if p.symbols = [] then return (value, p.changes.reverse) else throw .unexpected

end Arithmetic

end GoldenRun.Shell
