import GoldenRun.Template.Tree

/-!
# Routines

A routine is a program of a template with its names settled.  A path begins at a block parameter
when one of that name is in reach, else in a context or in the data; a tag asks for a helper, for a
value, or for either, which shows only when it is met.

A block parameter is known by the number of programs between its use and the program that names
it, and by its position there.

When a call fails, the diagnosis names the strict look-up by a short name if the routine refers to
it more than once.  The short names are numbered in the order in which a routine first refers to
what they stand for (`shortNumber?`).
-/

namespace GoldenRun.Template

/-- The built-in helpers. -/
inductive Helper where
  /-- Chooses by a condition. -/
  | if_
  /-- Chooses by a negated condition. -/
  | unless
  /-- Changes the context. -/
  | with_
  /-- Goes over the fields of an object. -/
  | each
  /-- Reads a field by a computed name. -/
  | lookup
  /-- Writes a message. -/
  | log
  /-- A reserved name without a helper. -/
  | reserved
  deriving DecidableEq, Repr

/-- The helper of a name. -/
def Helper.ofName? (name : String) : Option Helper :=
  if name = "if" then some .if_
  else if name = "unless" then some .unless
  else if name = "with" then some .with_
  else if name = "each" then some .each
  else if name = "lookup" then some .lookup
  else if name = "log" then some .log
  else if name = "helperMissing" ∨ name = "blockHelperMissing" then some .reserved
  else none

/-! ## Paths -/

/-- Where a path begins. -/
inductive Origin where
  /-- In the context some levels up. -/
  | context (depth : Nat)
  /-- In the data some levels up. -/
  | data (depth : Nat)
  /-- At a block parameter, some programs out. -/
  | param (level index : Nat) (name : String)
  deriving DecidableEq, Repr

/-- Where a value is read. -/
structure Access where
  /-- Where it begins. -/
  origin : Origin
  /-- The names that are read one after the other. -/
  names : List String
  /-- Whether it was written as bound to the context. -/
  bound : Bool
  /-- Where it is written. -/
  place : Place
  deriving DecidableEq, Repr

/-- Whether the last name of a path is looked up strictly where the path is read strictly. -/
def Access.searches (a : Access) : Bool := a.names ≠ [] && !(a.origin matches .param ..)

/-- The names of the block parameters in reach, innermost program first. -/
abbrev Names := List (Option (List String))

/-- The level and the position of a block parameter. -/
def Names.find? (names : Names) (name : String) : Option (Nat × Nat) :=
  go 0 names
where
  /-- The search from a level on. -/
  go (level : Nat) : Names → Option (Nat × Nat)
    | [] => none
    | params :: rest =>
      match (params.getD []).findIdx? (· = name) with
      | some i => some (level, i)
      | none => go (level + 1) rest

namespace NamePath

/-- Whether a path is bound to the context: it begins with a dot or holds the word `this` up to
the end of a word. -/
def isScoped (p : NamePath) : Bool :=
  startsWithDot p.written.toList || holdsThis p.written.toList
where
  /-- Whether a text begins with a dot. -/
  startsWithDot : List Char → Bool
    | '.' :: _ => true
    | _ => false
  /-- Whether a word ends before a text. -/
  endsWord : List Char → Bool
    | [] => true
    | c :: _ => !(c.isAlphanum || c = '_')
  /-- Whether a text holds the word. -/
  holdsThis : List Char → Bool
    | [] => false
    | c :: rest =>
      (c :: rest).take 4 = "this".toList && endsWord (rest.drop 3) || holdsThis rest

/-- Whether a path is one plain name. -/
def isSimple (p : NamePath) : Bool := p.names.length = 1 && !p.isScoped && p.depth = 0

/-- The block parameter at which a path begins. -/
def param? (p : NamePath) (names : Names) : Option (Nat × Nat) :=
  match p.names with
  | first :: _ => if p.depth = 0 && !p.isScoped then names.find? first else none
  | [] => none

/-- Whether a path is nothing but a block parameter. -/
def isParam (p : NamePath) (names : Names) : Bool := p.isSimple && (p.param? names).isSome

/-- Where the value of a path is read.  A path whose first name is empty is the context itself,
whatever follows. -/
def access (p : NamePath) (names : Names) : Access :=
  match p.param? names, p.names with
  | some (level, i), first :: rest => ⟨.param level i first, rest, p.isScoped, p.place⟩
  | _, [] | _, "" :: _ => ⟨.context p.depth, [], p.isScoped, p.place⟩
  | _, all => ⟨if p.data then .data p.depth else .context p.depth, all, p.isScoped, p.place⟩

/-- The helper that a path names. -/
def helper? (p : NamePath) : Option Helper := p.names.head?.bind Helper.ofName?

end NamePath

/-- What is called, as a path: a literal is the name it spells. -/
def headPath : Expr → NamePath
  | .path p => p
  | .literal value place => ⟨false, 0, [value.text], value.text, place⟩
  | .call _ _ _ place => ⟨false, 0, [], "", place⟩

/-! ## Expressions -/

/-- What a call with arguments calls. -/
inductive Callee where
  /-- A built-in helper. -/
  | helper (helper : Helper) (name : String)
  /-- A value; a plain name could also be that of a helper. -/
  | member (name : String) (plain : Bool) (access : Access)
  deriving DecidableEq, Repr

/-- The callee that a path names. -/
def NamePath.callee (p : NamePath) (names : Names) : Callee :=
  match p.helper? with
  | some helper => .helper helper (p.names.headD "")
  | none => .member p.written p.isSimple (p.access names)

/-- An argument. -/
inductive Operand where
  /-- A literal. -/
  | literal (value : Literal)
  /-- A value that is read leniently. -/
  | path (access : Access)
  /-- A block parameter in parentheses. -/
  | param (access : Access)
  /-- A call in parentheses. -/
  | call (callee : Callee) (args : List Operand) (named : List (String × Operand))
  deriving Inhabited, Repr

mutual

/-- An expression as an argument. -/
def Expr.operand (names : Names) : Expr → Operand
  | .path p => .path (p.access names)
  | .literal value _ => .literal value
  | .call head args named _ =>
    let p := headPath head
    if p.isParam names then .param (p.access names)
    else .call (p.callee names) (operands names args) (namedOperands names named)

/-- `Expr.operand` for several arguments. -/
def operands (names : Names) : List Expr → List Operand
  | [] => []
  | e :: rest => e.operand names :: operands names rest

/-- `Expr.operand` for several named arguments. -/
def namedOperands (names : Names) : List (String × Expr) → List (String × Operand)
  | [] => []
  | (name, e) :: rest => (name, e.operand names) :: namedOperands names rest

end

/-- How a tag asks for what it shows. -/
inductive Asking where
  /-- It calls something. -/
  | call (callee : Callee) (args : List Operand) (named : List (String × Operand))
  /-- It names something that is called if that is possible. -/
  | either (name : String) (access : Access)
  /-- It names a value. -/
  | value (access : Access)
  deriving Repr

/-- How the call of a tag asks. -/
def Call.asking (names : Names) (c : Call) : Asking :=
  let p := headPath c.head
  if p.isParam names then .value (p.access names)
  else if c.args ≠ [] || c.named ≠ [] || (p.isSimple && p.helper?.isSome) then
    .call (p.callee names) (operands names c.args) (namedOperands names c.named)
  else if p.isSimple then .either (p.names.headD "") (p.access names)
  else .value (p.access names)

/-! ## Steps -/

/-- How a partial is named. -/
inductive PartialName where
  /-- By its name. -/
  | fixed (name : String)
  /-- By a value. -/
  | computed (name : Operand)
  deriving Inhabited, Repr

mutual

/-- A step of a routine. -/
inductive Step where
  /-- Writes a text. -/
  | text (s : String)
  /-- Writes what a tag shows. -/
  | write (asking : Asking)
  /-- Writes what a block shows. -/
  | block (asking : Asking) (body inverse : Option Routine)
  /-- Writes a partial, each line behind an indentation. -/
  | partialCall (name : PartialName) (arg : Option Operand) (named : List (String × Operand))
      (body : Option Routine) (indent : String)
  /-- Declares something before the routine runs. -/
  | declare (name : String) (args : List Operand) (named : List (String × Operand))
      (body : Option Routine)

/-- The steps of a program.  `single` tells whether the program is one statement, `usesParams`
whether a block parameter is read in the program or inside it, and `strictName` is what a
diagnosis calls the strict look-up. -/
inductive Routine where
  /-- A routine from its parts. -/
  | mk (steps : List Step) (single usesParams : Bool) (strictName : String)

end

instance : Inhabited Routine := ⟨.mk [] false false ""⟩

namespace Routine

/-- The steps. -/
def steps : Routine → List Step
  | mk steps _ _ _ => steps

/-- Whether the program is one statement. -/
def single : Routine → Bool
  | mk _ single _ _ => single

/-- Whether a block parameter is read in the program or inside it. -/
def usesParams : Routine → Bool
  | mk _ _ usesParams _ => usesParams

/-- What a diagnosis calls the strict look-up. -/
def strictName : Routine → String
  | mk _ _ _ strictName => strictName

end Routine

/-- The routines inside a step. -/
def Step.inner : Step → List Routine
  | .block _ body inverse => body.toList ++ inverse.toList
  | .partialCall _ _ _ body _ | .declare _ _ _ body => body.toList
  | _ => []

/-! ## Reading block parameters -/

/-- Whether a path begins at a block parameter. -/
def Access.isParam (a : Access) : Bool := a.origin matches .param ..

/-- Whether a callee is a block parameter or reads from one. -/
def Callee.isParam : Callee → Bool
  | .helper .. => false
  | .member _ _ access => access.isParam

mutual

/-- Whether a block parameter is read in an argument. -/
def Operand.usesParams : Operand → Bool
  | .literal _ => false
  | .path access | .param access => access.isParam
  | .call callee args named => callee.isParam || anyUsesParams args || anyNamedUsesParams named

/-- Whether a block parameter is read in one of some arguments. -/
def anyUsesParams : List Operand → Bool
  | [] => false
  | o :: rest => o.usesParams || anyUsesParams rest

/-- Whether a block parameter is read in one of some named arguments. -/
def anyNamedUsesParams : List (String × Operand) → Bool
  | [] => false
  | (_, o) :: rest => o.usesParams || anyNamedUsesParams rest

end

/-- Whether a block parameter is read where a tag asks. -/
def Asking.usesParams : Asking → Bool
  | .call callee args named => callee.isParam || anyUsesParams args || anyNamedUsesParams named
  | .either _ access | .value access => access.isParam

/-- Whether a block parameter is read in a step itself. -/
def Step.usesParams : Step → Bool
  | .text _ => false
  | .write asking | .block asking _ _ => asking.usesParams
  | .partialCall name arg named _ _ =>
    (match name with
      | .fixed _ => false
      | .computed o => o.usesParams) ||
    arg.any Operand.usesParams || anyNamedUsesParams named
  | .declare _ args named _ => anyUsesParams args || anyNamedUsesParams named

/-- Whether a block parameter is read in a routine inside a step. -/
def Step.innerUsesParams (s : Step) : Bool := s.inner.any Routine.usesParams

/-! ## Short names -/

/-- What a routine may have a short name for. -/
inductive Referent where
  /-- The strict look-up. -/
  | strict
  /-- The context that helpers see. -/
  | context
  /-- The word for functions. -/
  | functionWord
  /-- What a block without a helper does. -/
  | missing
  /-- The call of a value that can be called. -/
  | lambda
  deriving DecidableEq, Repr

/-- What is referred to when a path is read strictly. -/
def Access.referents (a : Access) : List Referent := if a.searches then [.strict] else []

/-- What is referred to when something is called. -/
def Callee.referents : Callee → List Referent
  | .helper .. => [.context]
  | .member _ _ access => access.referents ++ [.context]

mutual

/-- What an argument refers to. -/
def Operand.referents : Operand → List Referent
  | .literal _ | .path _ => []
  | .param access => access.referents ++ [.lambda]
  | .call callee args named => listReferents args ++ namedReferents named ++ callee.referents

/-- What some arguments refer to. -/
def listReferents : List Operand → List Referent
  | [] => []
  | o :: rest => o.referents ++ listReferents rest

/-- What some named arguments refer to. -/
def namedReferents : List (String × Operand) → List Referent
  | [] => []
  | (_, o) :: rest => o.referents ++ namedReferents rest

end

/-- What a tag refers to. -/
def Asking.referents : Asking → List Referent
  | .call callee args named => listReferents args ++ namedReferents named ++ callee.referents
  | .either _ access => access.referents ++ [.context, .functionWord]
  | .value access => access.referents ++ [.lambda]

/-- What a step refers to. -/
def Step.referents : Step → List Referent
  | .text _ => []
  | .write asking => asking.referents
  | .block asking _ _ =>
    asking.referents ++ if asking matches .call .. then [] else [.missing]
  | .partialCall name arg named _ _ =>
    (match name with
      | .fixed _ => []
      | .computed o => o.referents) ++
    (arg.map Operand.referents).getD [] ++ namedReferents named
  | .declare _ args named _ => listReferents args ++ namedReferents named

/-- The number of the short name for a referent, if it is referred to more than once. -/
def shortNumber? (all : List Referent) (r : Referent) : Option Nat :=
  ((all.eraseDups.filter fun x => 1 < all.count x).findIdx? (· = r)).map (· + 1)

/-- What a diagnosis calls the strict look-up in a routine with the given steps. -/
def strictNameIn (steps : List Step) : String :=
  match shortNumber? (steps.flatMap Step.referents) .strict with
  | some n => "alias" ++ toString n
  | none => "container.strict"

/-! ## From programs to routines -/

/-- The routine of some steps. -/
def Routine.ofSteps (steps : List Step) (single : Bool) : Routine :=
  .mk steps single (steps.any fun s => s.usesParams || s.innerUsesParams) (strictNameIn steps)

/-- The partial that a call names. -/
def Call.partialName (names : Names) (c : Call) : PartialName :=
  match c.head with
  | .call head args named place => .computed (Expr.operand names (.call head args named place))
  | .path p => .fixed p.written
  | .literal value _ => .fixed value.text

/-- The name of what a declaration calls. -/
def Call.declaredName (c : Call) : String :=
  match c.head with
  | .path p => p.written
  | .literal value _ => value.text
  | .call .. => ""

mutual

/-- The routine of a program. -/
def Program.routine (names : Names) : Program → Routine
  | .mk statements params _ =>
    .ofSteps (routineSteps (params :: names) statements) (statements.length = 1)

/-- `Program.routine` where there may be no program. -/
def routineOption (names : Names) : Option Program → Option Routine
  | none => none
  | some p => some (p.routine names)

/-- The step of a statement, if it has one. -/
def Statement.step? (names : Names) : Statement → Option Step
  | .content c => if c.shown = [] then none else some (.text (String.ofList c.shown))
  | .comment _ => none
  | .mustache call _ => some (.write (call.asking names))
  | .decorator call _ =>
    some (.declare call.declaredName (operands names call.args) (namedOperands names call.named)
      none)
  | .partialCall call _ _ indent =>
    some (.partialCall (call.partialName names) ((operands names call.args).head?)
      (namedOperands names call.named) none (String.ofList indent))
  | .block flavour call body inverse _ _ _ _ =>
    let body := routineOption names body
    let inverse := routineOption names inverse
    match flavour with
    | .plain => some (.block (call.asking names) body inverse)
    | .decorator =>
      some (.declare call.declaredName (operands names call.args) (namedOperands names call.named)
        body)
    | .partialBlock =>
      some (.partialCall (call.partialName names) ((operands names call.args).head?)
        (namedOperands names call.named) body "")

/-- The steps of some statements. -/
def routineSteps (names : Names) : List Statement → List Step
  | [] => []
  | s :: rest => (s.step? names).toList ++ routineSteps names rest

end

end GoldenRun.Template
