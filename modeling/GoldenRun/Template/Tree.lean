import GoldenRun.Number.Shortest
import GoldenRun.Template.Token

/-!
# The tree of a template

A template is a list of statements: plain text, comments, values to be written, partials, and
blocks with a body and perhaps an inverse one.  What a tag calls is an expression: a path into the
context, a literal, or a call with arguments in parentheses.
-/

namespace GoldenRun.Template

open GoldenRun.Number

/-- A literal. -/
inductive Literal where
  /-- A string. -/
  | string (s : String)
  /-- A number. -/
  | number (x : Binary64)
  /-- A truth value. -/
  | bool (b : Bool)
  /-- No value. -/
  | undefined
  /-- The empty value. -/
  | null
  deriving DecidableEq, Repr, Inhabited

/-- The text of a literal, where it serves as a name. -/
def Literal.text : Literal → String
  | .string s => s
  | .number x => x.text
  | .bool b => if b then "true" else "false"
  | .undefined => "undefined"
  | .null => "null"

/-- A path: names to be looked up one after the other, in a context some levels up or in the data
of the rendering. -/
structure NamePath where
  /-- Whether it leads into the data. -/
  data : Bool
  /-- How many levels up it begins. -/
  depth : Nat
  /-- The names. -/
  names : List String
  /-- The path as written. -/
  written : String
  /-- Where it is written. -/
  place : Place
  deriving DecidableEq, Repr, Inhabited

/-- An expression. -/
inductive Expr where
  /-- A path. -/
  | path (p : NamePath)
  /-- A literal. -/
  | literal (value : Literal) (place : Place)
  /-- A call in parentheses. -/
  | call (head : Expr) (args : List Expr) (named : List (String × Expr)) (place : Place)
  deriving Inhabited, Repr

/-- Where an expression is written. -/
def Expr.place : Expr → Place
  | .path p => p.place
  | .literal _ place => place
  | .call _ _ _ place => place

/-- What a tag calls, with its arguments. -/
structure Call where
  /-- What is called. -/
  head : Expr
  /-- The arguments by position. -/
  args : List Expr
  /-- The arguments by name. -/
  named : List (String × Expr)
  deriving Inhabited, Repr

/-- Whether the blanks before and behind a tag are taken away. -/
structure Strip where
  /-- The blanks before the tag. -/
  before : Bool := false
  /-- The blanks behind the tag. -/
  behind : Bool := false
  deriving DecidableEq, Repr, Inhabited

/-- A piece of plain text. -/
structure Content where
  /-- The text as written. -/
  written : List Char
  /-- The text with blanks taken away. -/
  shown : List Char
  /-- Whether blanks were taken away at its beginning. -/
  cutInFront : Bool := false
  /-- Whether blanks were taken away at its end. -/
  cutAtEnd : Bool := false
  deriving DecidableEq, Repr, Inhabited

/-- The flavours of a block. -/
inductive BlockFlavour where
  /-- A block that is called with its body. -/
  | plain
  /-- A declaration. -/
  | decorator
  /-- A partial with a body. -/
  | partialBlock
  deriving DecidableEq, Repr, Inhabited

mutual

/-- A statement. -/
inductive Statement where
  /-- Plain text. -/
  | content (c : Content)
  /-- A comment. -/
  | comment (strip : Strip)
  /-- A value to be written. -/
  | mustache (call : Call) (strip : Strip)
  /-- A declaration without a body. -/
  | decorator (call : Call) (strip : Strip)
  /-- A partial; `indent` stands before each line of its text. -/
  | partialCall (call : Call) (strip : Strip) (place : Place) (indent : List Char)
  /-- A block. -/
  | block (flavour : BlockFlavour) (call : Call) (body inverse : Option Program)
      (openStrip inverseStrip closeStrip : Strip) (place : Place)

/-- Statements with the names of the parameters of their block. -/
inductive Program where
  /-- The statements; `chained` marks a body that is nothing but a further conditional branch. -/
  | mk (statements : List Statement) (params : Option (List String)) (chained : Bool)

end

instance : Inhabited Program := ⟨.mk [] none false⟩
instance : Inhabited Statement := ⟨.comment {}⟩

/-- The statements of a program. -/
def Program.statements : Program → List Statement
  | .mk statements _ _ => statements

/-- The names of the parameters of a program. -/
def Program.params : Program → Option (List String)
  | .mk _ params _ => params

/-- Whether a program is nothing but a further conditional branch. -/
def Program.chained : Program → Bool
  | .mk _ _ chained => chained

/-- The program with other statements. -/
def Program.withStatements (p : Program) (statements : List Statement) : Program :=
  .mk statements p.params p.chained

/-- The program with parameters. -/
def Program.withParams (p : Program) (params : Option (List String)) : Program :=
  .mk p.statements params p.chained

end GoldenRun.Template
