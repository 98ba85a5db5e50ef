import GoldenRun.Template.Routine

/-!
# Alike routines

Two routines are alike if they differ in nothing but where they are written.  A template keeps only
the first of several alike routines and uses it in the place of the others, so that a diagnosis
gives the place of the first.

`Routine.traits` lists all that counts for the comparison.  `share` goes through the routines of a
template, those inside a routine before the routine itself, and replaces each by the first one with
the same traits.
-/

namespace GoldenRun.Template

/-- What tells a routine from others. -/
inductive Trait where
  /-- A word. -/
  | word (s : String)
  /-- A number. -/
  | count (n : Nat)
  /-- A yes or no. -/
  | flag (b : Bool)
  /-- A literal. -/
  | literal (value : Literal)
  deriving DecidableEq, Repr

/-- The traits of a list of words, with their number in front. -/
def wordTraits (words : List String) : List Trait := .count words.length :: words.map .word

/-- The traits of a path. -/
def Access.traits (a : Access) : List Trait :=
  (match a.origin with
    | .context depth => [.word "context", .count depth]
    | .data depth => [.word "data", .count depth]
    | .param level index name => [.word "parameter", .count level, .count index, .word name]) ++
  wordTraits a.names ++ [.flag a.bound]

/-- The traits of a callee. -/
def Callee.traits : Callee → List Trait
  | .helper _ name => [.word "helper", .word name]
  | .member name plain access => [.word "member", .word name, .flag plain] ++ access.traits

mutual

/-- The traits of an argument. -/
def Operand.traits : Operand → List Trait
  | .literal value => [.word "literal", .literal value]
  | .path access => .word "path" :: access.traits
  | .param access => .word "value" :: access.traits
  | .call callee args named =>
    .word "call" :: callee.traits ++ .count args.length :: operandTraits args ++
      .count named.length :: namedTraits named

/-- The traits of some arguments. -/
def operandTraits : List Operand → List Trait
  | [] => []
  | o :: rest => o.traits ++ operandTraits rest

/-- The traits of some named arguments. -/
def namedTraits : List (String × Operand) → List Trait
  | [] => []
  | (name, o) :: rest => .word name :: o.traits ++ namedTraits rest

end

/-- The traits of the arguments of a call. -/
def argumentTraits (args : List Operand) (named : List (String × Operand)) : List Trait :=
  .count args.length :: operandTraits args ++ .count named.length :: namedTraits named

/-- The traits of what a tag asks for. -/
def Asking.traits : Asking → List Trait
  | .call callee args named => .word "call" :: callee.traits ++ argumentTraits args named
  | .either name access => [.word "either", .word name] ++ access.traits
  | .value access => .word "value" :: access.traits

/-- The traits of the name of a partial. -/
def PartialName.traits : PartialName → List Trait
  | .fixed name => [.word "fixed", .word name]
  | .computed o => .word "computed" :: o.traits

mutual

/-- The traits of a step. -/
def Step.traits : Step → List Trait
  | .text s => [.word "text", .word s]
  | .write asking => .word "write" :: asking.traits
  | .block asking body inverse =>
    .word "block" :: asking.traits ++ optionTraits body ++ optionTraits inverse
  | .partialCall name arg named body indent =>
    .word "partial" :: name.traits ++ argumentTraits arg.toList named ++ [.word indent] ++
      optionTraits body
  | .declare name args named body =>
    [.word "declare", .word name] ++ argumentTraits args named ++ optionTraits body

/-- The traits of a routine. -/
def Routine.traits : Routine → List Trait
  | .mk steps _ _ _ => .count steps.length :: stepTraits steps

/-- The traits of a routine that may be missing. -/
def optionTraits : Option Routine → List Trait
  | none => [.flag false]
  | some r => .flag true :: r.traits

/-- The traits of some steps. -/
def stepTraits : List Step → List Trait
  | [] => []
  | s :: rest => s.traits ++ stepTraits rest

end

/-- The routines met so far, with their traits. -/
abbrev Known := List (List Trait × Routine)

/-- The routine to be used in the place of another: the first one alike, or the routine with what
is inside it replaced by `inner`. -/
def replaceBy (inner : StateM Known Routine) (traits : List Trait) : StateM Known Routine := do
  match (← get).lookup traits with
  | some first => return first
  | none =>
    let r ← inner
    modify (· ++ [(traits, r)])
    return r

mutual

/-- The step with the routines inside it shared. -/
def Step.share : Step → StateM Known Step
  | .block asking body inverse => do
    let body ← shareOption body
    let inverse ← shareOption inverse
    return .block asking body inverse
  | .partialCall name arg named body indent => do
    return .partialCall name arg named (← shareOption body) indent
  | .declare name args named body => do return .declare name args named (← shareOption body)
  | s => return s

/-- The routine with the routines inside it shared. -/
def Routine.shareInner : Routine → StateM Known Routine
  | .mk steps single usesParams strictName => do
    return .mk (← shareSteps steps) single usesParams strictName

/-- The routine in the place of one that may be missing. -/
def shareOption : Option Routine → StateM Known (Option Routine)
  | none => return none
  | some r => do return some (← replaceBy r.shareInner r.traits)

/-- The steps with the routines inside them shared. -/
def shareSteps : List Step → StateM Known (List Step)
  | [] => return []
  | s :: rest => do
    let s ← s.share
    let rest ← shareSteps rest
    return s :: rest

end

/-- The routine of a whole template. -/
def Program.sharedRoutine (p : Program) : Routine := ((p.routine []).shareInner.run []).1

end GoldenRun.Template
