import GoldenRun.CommandLine.Suggestion

/-!
# Reading arguments

Arguments are flags, values of flags and operands, in any order.  A flag can be written with its
name or its letter; its value follows it, or stands behind an equals sign, or directly behind the
letter.  Letters of flags without values can be written together.  Everything behind `--` is an
operand.

A flag that is not known is left for another reader, and so is all that follows it, except for
known flags.
-/

namespace GoldenRun.CommandLine

/-- What is wrong with a command line. -/
inductive UsageFault where
  /-- An operand is missing. -/
  | missingOperand (name : String)
  /-- A flag is not known. -/
  | unknownFlag (arg : String) (suggestions : List String)
  /-- A flag has no value. -/
  | missingValue (flag : Flag)
  /-- A flag cannot have this value. -/
  | badValue (flag : Flag) (value objection : String)
  deriving DecidableEq, Repr

/-- The message of a fault. -/
def UsageFault.message : UsageFault → String
  | .missingOperand name => "error: missing required argument '" ++ name ++ "'"
  | .unknownFlag arg suggestions =>
    "error: unknown option '" ++ arg ++ "'" ++
      match suggestions with
      | [] => ""
      | [one] => "\n(Did you mean " ++ one ++ "?)"
      | many => "\n(Did you mean one of " ++ ", ".intercalate many ++ "?)"
  | .missingValue flag => "error: option '" ++ flag.shown ++ "' argument missing"
  | .badValue flag value objection =>
    "error: option '" ++ flag.shown ++ "' argument '" ++ value ++ "' is invalid. " ++ objection

/-- Why the reading of arguments ends early. -/
inductive Interruption where
  /-- The version was asked for. -/
  | version
  /-- Something is wrong. -/
  | fault (fault : UsageFault)
  deriving DecidableEq, Repr

/-- Arguments that were read. -/
structure Arguments where
  /-- The flags in order, with their values; one without a value has the empty one. -/
  given : List (Flag × String) := []
  /-- The operands. -/
  operands : List String := []
  /-- What is left for another reader. -/
  unknown : List String := []
  deriving DecidableEq, Repr

namespace Arguments

/-- Whether an argument looks like a flag. -/
def looksLikeFlag (arg : String) : Bool :=
  match arg.toList with
  | '-' :: _ :: _ => true
  | _ => false

/-- Takes a flag with its value. -/
def give (a : Arguments) (flag : Flag) (value : String) : Except Interruption Arguments :=
  if flag = versionFlag then .error .version
  else match flag.rule.objection? value with
    | some objection => .error (.fault (.badValue flag value objection))
    | none => .ok { a with given := a.given ++ [(flag, value)] }

/-- Takes an argument that is no known flag. -/
def put (a : Arguments) (arg : String) : Arguments :=
  if looksLikeFlag arg || !a.unknown.isEmpty then { a with unknown := a.unknown ++ [arg] }
  else { a with operands := a.operands ++ [arg] }

/-- Takes all that stands behind `--`. -/
def putRest (a : Arguments) (rest : List String) : Arguments :=
  if a.unknown.isEmpty then { a with operands := a.operands ++ rest }
  else { a with unknown := a.unknown ++ "--" :: rest }

/-- How an argument that looks like a flag is to be taken. -/
inductive Reading where
  /-- A flag without a value. -/
  | plain (flag : Flag)
  /-- A flag whose value follows. -/
  | open_ (flag : Flag)
  /-- A flag and its value. -/
  | complete (flag : Flag) (value : String)
  /-- A flag without a value, and an argument that is made of the letters behind it. -/
  | bundled (flag : Flag) (next : String)
  /-- No known flag. -/
  | unknown
  deriving DecidableEq, Repr

/-- How an argument is to be taken that has letters of several flags. -/
def readBundle (flags : List Flag) (arg : String) : Option Reading :=
  match arg.toList with
  | '-' :: c :: d :: rest =>
    if c = '-' then none
    else (flags.find? (·.letter = some c)).map fun flag =>
      if flag.value.isSome then .complete flag (String.ofList (d :: rest))
      else .bundled flag (String.ofList ('-' :: d :: rest))
  | _ => none

/-- How an argument is to be taken that may have a value behind an equals sign. -/
def readAssigned (flags : List Flag) (arg : String) : Option Reading :=
  let (name, behind) := arg.toList.span (· ≠ '=')
  match behind with
  | _ :: value =>
    (flags.find? fun flag => flag.value.isSome && flag.long = String.ofList name).map fun flag =>
      .complete flag (String.ofList value)
  | [] => none

/-- How an argument is to be taken. -/
def readFlag (flags : List Flag) (arg : String) : Reading :=
  match flags.find? (·.isWritten arg) with
  | some flag => if flag.value.isSome then .open_ flag else .plain flag
  | none => ((readBundle flags arg).orElse fun _ => readAssigned flags arg).getD .unknown

/-- Reads arguments behind those that were read already; `taker` is the flag that takes the values
that follow.  The first number bounds the arguments, counting those that letters are made of. -/
def readFrom (flags : List Flag) :
    Nat → Option Flag → Arguments → List String → Except Interruption Arguments
  | 0, _, a, _ => .ok a
  | _ + 1, _, a, [] => .ok a
  | n + 1, taker, a, arg :: rest =>
    if arg = "--" then .ok (a.putRest rest)
    else if looksLikeFlag arg then
      match readFlag flags arg, rest with
      | .plain flag, rest => (a.give flag "").bind (readFrom flags n none · rest)
      | .open_ flag, [] => .error (.fault (.missingValue flag))
      | .open_ flag, value :: rest =>
        (a.give flag value).bind (readFrom flags n (if flag.many then some flag else none) · rest)
      | .complete flag value, rest => (a.give flag value).bind (readFrom flags n none · rest)
      | .bundled flag next, rest => (a.give flag "").bind (readFrom flags n none · (next :: rest))
      | .unknown, rest => readFrom flags n none (a.put arg) rest
    else match taker with
      | some flag => (a.give flag arg).bind (readFrom flags n (some flag) · rest)
      | none => readFrom flags n none (a.put arg) rest

/-- Reads arguments. -/
def read (flags : List Flag) (args : List String) : Except Interruption Arguments :=
  readFrom flags ((args.flatMap String.toList).length + args.length + 1) none {} args

/-- All values that a flag was given. -/
def values (a : Arguments) (flag : Flag) : List String :=
  (a.given.filter (·.1 = flag)).map (·.2)

/-- The last value that a flag was given. -/
def value? (a : Arguments) (flag : Flag) : Option String := (a.values flag).getLast?

end Arguments

end GoldenRun.CommandLine
