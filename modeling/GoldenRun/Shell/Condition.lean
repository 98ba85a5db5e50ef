import GoldenRun.Disk.Basic
import GoldenRun.Shell.Arithmetic

/-!
# Conditions

The conditions of the command `test`: texts are compared, numbers are compared, and paths are
looked up.  `Condition.holds` reads the words once from left to right and answers on the way; both
sides of a logical operator are looked at in any case.

A word is an operator by its place: `kind` says what the first of some words is.  A reading step
leaves the words from the last one it has used, so that what comes next is seen behind that one.
-/

namespace GoldenRun.Shell

/-- What is wrong with a condition. -/
inductive ConditionFault where
  /-- An operator has no operand. -/
  | missing (operator : String)
  /-- No word is expected behind this one. -/
  | unexpected (word : String)
  /-- A parenthesis is not closed. -/
  | openParenthesis
  /-- A word is no number. -/
  | badNumber (text : String)
  deriving DecidableEq, Repr

/-- The message of a fault. -/
def ConditionFault.message : ConditionFault → String
  | .missing operator => operator ++ ": argument expected"
  | .unexpected word => if word = "" then "unexpected operator" else word ++ ": unexpected operator"
  | .openParenthesis => "closing paren expected"
  | .badNumber text => "Illegal number: " ++ text

namespace Condition

/-- The operators with one operand. -/
def properties : List String :=
  ["-n", "-z", "-e", "-f", "-d", "-r", "-w", "-x", "-s", "-t", "-h", "-L", "-p", "-b", "-c", "-S",
    "-u", "-g", "-k", "-O", "-G"]

/-- The operators with two operands. -/
def comparisons : List String :=
  ["=", "!=", "<", ">", "-eq", "-ne", "-lt", "-le", "-gt", "-ge", "-nt", "-ot", "-ef"]

/-- What a word is. -/
inductive Kind where
  | nothing | operand | property | comparison | negation | both | either | opening | closing
  deriving DecidableEq, Repr

/-- What the first of some words is.  An operator with one operand that has none, or that stands
to the left of a comparison, is an operand itself. -/
def kind : List String → Kind
  | [] => .nothing
  | word :: rest =>
    let isOperand := match rest with
      | [] => true
      | [_] => false
      | next :: _ => comparisons.contains next
    if word = "!" then .negation
    else if word = "-a" then .both
    else if word = "-o" then .either
    else if word = "(" && !rest.isEmpty then .opening
    else if word = ")" then .closing
    else if comparisons.contains word then .comparison
    else if properties.contains word && !isOperand then .property
    else .operand

/-- The number that a word writes. -/
def number (word : String) : Except ConditionFault Int :=
  match Arithmetic.leading Arithmetic.decimal? word.toList with
  | some (n, rest) =>
    if Arithmetic.fits n && Arithmetic.skip rest = [] then .ok n else .error (.badNumber word)
  | none => .error (.badNumber word)

/-- Whether a word has a property; `entry` looks up a path.  The place for what is not needed is a
device. -/
def hasProperty (entry : String → Option Entry) (operator operand : String) :
    Except ConditionFault Bool :=
  let isDevice := operand = "/dev/null"
  match operator with
  | "-n" => .ok (operand ≠ "")
  | "-z" => .ok (operand = "")
  | "-e" | "-r" | "-w" | "-O" | "-G" => .ok (isDevice || (entry operand).isSome)
  | "-c" => .ok isDevice
  | "-f" => .ok <| match entry operand with
    | some (.file _ _) => true
    | _ => false
  | "-d" => .ok (entry operand = some .directory)
  | "-x" => .ok <| match entry operand with
    | some (.file _ executable) => executable
    | some .directory => true
    | none => false
  | "-s" => .ok <| match entry operand with
    | some (.file bytes _) => !bytes.isEmpty
    | some .directory => true
    | none => false
  | "-t" => do
    let _ ← number operand
    return false
  | _ => .ok false

/-- Whether two words compare so.  No entry is newer than another one. -/
def compare (entry : String → Option Entry) (operator left right : String) :
    Except ConditionFault Bool :=
  match operator with
  | "=" => .ok (left = right)
  | "!=" => .ok (left ≠ right)
  | "<" => .ok (left < right)
  | ">" => .ok (right < left)
  | "-nt" | "-ot" => .ok false
  | "-ef" => .ok (left = right && (entry left).isSome)
  | _ => do
    let a ← number left
    let b ← number right
    return match operator with
      | "-eq" => a = b
      | "-ne" => a ≠ b
      | "-lt" => a < b
      | "-le" => a ≤ b
      | "-gt" => b < a
      | _ => b ≤ a

mutual

/-- Whether one of some alternatives holds; `held` says that an earlier one does. -/
def alternatives (entry : String → Option Entry) : Nat → Bool → List String →
    Except ConditionFault (Bool × List String)
  | 0, _, words => .ok (false, words)
  | n + 1, held, words => do
    let (x, words) ← conjunction entry n true words
    let x := held || x
    if kind (words.drop 1) = .either then alternatives entry n x (words.drop 2)
    else return (x, words)

/-- Whether all parts of a conjunction hold; `held` says that the earlier ones do. -/
def conjunction (entry : String → Option Entry) : Nat → Bool → List String →
    Except ConditionFault (Bool × List String)
  | 0, _, words => .ok (false, words)
  | n + 1, held, words => do
    let (x, words) ← negatable entry n words
    let x := held && x
    if kind (words.drop 1) = .both then conjunction entry n x (words.drop 2)
    else return (x, words)

/-- Whether a condition with its negations holds. -/
def negatable (entry : String → Option Entry) : Nat → List String →
    Except ConditionFault (Bool × List String)
  | 0, words => .ok (false, words)
  | n + 1, words =>
    if kind words = .negation then
      match words with
      | [_] => .ok (true, words)
      | _ => do
        let (x, words) ← negatable entry n (words.drop 1)
        return (!x, words)
    else primary entry n words

/-- Whether a condition without logical operators holds. -/
def primary (entry : String → Option Entry) : Nat → List String →
    Except ConditionFault (Bool × List String)
  | 0, words => .ok (false, words)
  | _ + 1, [] => .ok (false, [])
  | n + 1, word :: rest =>
    match kind (word :: rest) with
    | .opening =>
      if kind rest = .closing then .ok (false, rest)
      else do
        let (x, words) ← alternatives entry n false rest
        let words := words.drop 1
        if kind words = .closing then return (x, words) else throw .openParenthesis
    | .property =>
      match rest with
      | [] => .error (.missing word)
      | operand :: _ => do return (← hasProperty entry word operand, rest)
    | _ => comparison entry word rest

/-- Whether a comparison holds, or a single word is not empty. -/
def comparison (entry : String → Option Entry) (word : String) (rest : List String) :
    Except ConditionFault (Bool × List String) :=
  match kind rest, rest with
  | .comparison, operator :: behind =>
    match behind with
    | [] => .error (.missing operator)
    | right :: _ => do return (← compare entry operator word right, behind)
  | _, _ => .ok (word ≠ "", word :: rest)

end

/-- Whether the condition that some words write holds.  Where the first word is the left side of a
comparison by its place, `first` says so. -/
def holdsAll (entry : String → Option Entry) (first : Bool) (words : List String) :
    Except ConditionFault Bool := do
  let (x, words) ← match first, words with
    | true, word :: rest => comparison entry word rest
    | _, _ => alternatives entry (5 * words.length + 10) false words
  match words with
  | last :: _ :: _ => throw (.unexpected last)
  | _ => return x

/-- Whether the condition that some words write holds.  What three or four words mean is settled
by their number first. -/
def holds (entry : String → Option Entry) : List String → Except ConditionFault Bool
  | [] => .ok false
  | [first, operator, last] =>
    if comparisons.contains operator then holdsAll entry true [first, operator, last]
    else if first = "(" && last = ")" then holdsAll entry false [operator]
    else if first = "!" then do return !(← holdsAll entry false [operator, last])
    else holdsAll entry false [first, operator, last]
  | [first, second, third, last] =>
    if first = "(" && last = ")" then holdsAll entry false [second, third]
    else if first = "!" then do return !(← holds entry [second, third, last])
    else holdsAll entry false [first, second, third, last]
  | words => holdsAll entry false words

end Condition

end GoldenRun.Shell
