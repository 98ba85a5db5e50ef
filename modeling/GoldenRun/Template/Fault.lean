import GoldenRun.Template.Token
import GoldenRun.Text.Split
import GoldenRun.Text.Units

/-!
# What can go wrong with a template

Faults of form are found while a template is read, the others while it is filled in.
-/

namespace GoldenRun.Template

open GoldenRun.Text

/-- Why a template yields no text. -/
inductive Fault where
  /-- No token begins here. -/
  | unrecognized (line : Nat) (surrounding : Surrounding)
  /-- A token stands where others are expected. -/
  | unexpected (line : Nat) (surrounding : Surrounding) (expected : List TokenKind)
      (got : TokenKind)
  /-- A block is closed under another name. -/
  | unmatched (opened closed : String) (place : Place)
  /-- A path climbs in its middle. -/
  | invalidPath (path : String) (place : Place)
  /-- A decorator has an inverse branch. -/
  | decoratorInverse
  /-- A partial has more than one argument. -/
  | partialArguments (count : Nat) (place : Place)
  /-- A name is not defined. -/
  | notDefined (name holder : String) (place : Place)
  /-- A name is looked for in something that has no names. -/
  | notSearchable (name holder : String)
  /-- A property is read of nothing. -/
  | noHolder (holder property : String)
  /-- Something is called that is no helper. -/
  | notCallable (what : String)
  /-- A helper has the wrong number of arguments. -/
  | oneArgument (helper : String)
  /-- An iteration has nothing to go over. -/
  | noIterator
  /-- A partial does not exist. -/
  | noPartial (name : String)
  /-- A declaration calls something that declares nothing. -/
  | noDecorator (name : String)
  /-- A name of the rendering itself is out of reach. -/
  | outOfReach (name : String)
  /-- Partials call each other without end. -/
  | tooDeep
  deriving DecidableEq, Repr

namespace Fault

/-- A place at the end of a message. -/
def atPlace (place : Place) : String :=
  " - " ++ toString place.line ++ ":" ++ toString place.column

/-- The text around a point, with a mark below the point. -/
def pointer (s : Surrounding) : String :=
  s.before ++ s.behind ++ "\n" ++
    String.ofList (List.replicate (stringWidth s.before) '-') ++ "^"

/-- The message of a fault. -/
def message : Fault → String
  | unrecognized line s =>
    "Lexical error on line " ++ toString line ++ ". Unrecognized text.\n" ++ pointer s
  | unexpected line s expected got =>
    "Parse error on line " ++ toString line ++ ":\n" ++ pointer s ++ "\nExpecting " ++
      joinStrings ", " (expected.map fun k => "'" ++ k.word ++ "'") ++ ", got '" ++ got.word ++ "'"
  | unmatched opened closed place => opened ++ " doesn't match " ++ closed ++ atPlace place
  | invalidPath path place => "Invalid path: " ++ path ++ atPlace place
  | decoratorInverse => "Unexpected inverse block on decorator"
  | partialArguments count place =>
    "Unsupported number of partial arguments: " ++ toString count ++ atPlace place
  | notDefined name holder place =>
    "\"" ++ name ++ "\" not defined in " ++ holder ++ atPlace place
  | notSearchable name holder =>
    "Cannot use 'in' operator to search for '" ++ name ++ "' in " ++ holder
  | noHolder holder property =>
    "Cannot read properties of " ++ holder ++ " (reading '" ++ property ++ "')"
  | notCallable what => what ++ " is not a function"
  | oneArgument helper => "#" ++ helper ++ " requires exactly one argument"
  | noIterator => "Must pass iterator to #each"
  | noPartial name => "The partial " ++ name ++ " could not be found"
  | noDecorator name => "Missing decorator: \"" ++ name ++ "\""
  | outOfReach name => name ++ " is not defined"
  | tooDeep => "Maximum call stack size exceeded"

/-- The kinds of fault. -/
inductive Kind where
  /-- The template is at fault. -/
  | plain
  /-- A value is of the wrong type. -/
  | type
  /-- A name refers to nothing. -/
  | reference
  /-- A limit is exceeded. -/
  | range
  deriving DecidableEq, Repr

/-- The kind of a fault. -/
def kind : Fault → Kind
  | notSearchable .. | noHolder .. | notCallable .. => .type
  | outOfReach _ => .reference
  | tooDeep => .range
  | _ => .plain

end Fault

end GoldenRun.Template
