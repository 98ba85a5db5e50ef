import GoldenRun.Template.Blanks
import GoldenRun.Template.Grammar
import GoldenRun.Template.Notice
import GoldenRun.Template.Sharing

/-!
# Filling in a template

A name in a tag is looked up in the context, strictly: a name that is not there is a fault and
never an empty text.  The arguments of a helper are looked up leniently.  The helpers are the
built-in ones alone, and the only partials are those that a template declares within itself.

What a routine declares is declared when a block is made of it, before it runs, and with the
surroundings of the block in the place of its own.

A rendering keeps its notices even if it fails.  It takes a bound on its depth.  A template without
partials of its own nests no deeper than its text is long, so only partials that call each other
can reach the bound.
-/

namespace GoldenRun.Template

open GoldenRun.Number GoldenRun.Text

/-! ## The rendering -/

/-- What a rendering remembers. -/
structure Session where
  /-- The mark of the next object. -/
  mark : Nat := 2
  /-- The notices so far. -/
  notices : List Notice := []

/-- A part of a rendering. -/
abbrev Filling (α : Type) := ExceptT Fault (StateM Session) α

namespace Filling

/-- A new mark. -/
def newMark : Filling Nat := modifyGet fun s => (s.mark, { s with mark := s.mark + 1 })

/-- A new object. -/
def newObject (fields : Fields) : Filling Datum := do return .object (← newMark) fields

/-- A new list. -/
def newList (items path : List Datum) : Filling Datum := do return .list (← newMark) items path

/-- Gives a notice. -/
def tell (n : Notice) : Filling Unit := modify fun s => { s with notices := s.notices ++ [n] }

end Filling

open Filling

/-- The value of a literal. -/
def Literal.datum : Literal → Datum
  | .string s => .string s
  | .number x => .number x
  | .bool b => .bool b
  | .undefined => .undefined
  | .null => .null

/-- The surroundings of a running routine. -/
structure Scope where
  /-- The context. -/
  context : Datum
  /-- The contexts, innermost first. -/
  depths : List Datum
  /-- The data of the rendering. -/
  data : Datum
  /-- The values of block parameters, innermost program first. -/
  params : List Datum
  /-- The partials declared so far. -/
  partials : Fields
  /-- What a diagnosis calls the strict look-up. -/
  strictName : String := "container.strict"
  /-- Whether the helpers are in reach. -/
  helpers : Bool := true

/-- What a block is given when it is entered. -/
structure Given where
  /-- The data, if there are other ones. -/
  data : Option Datum := none
  /-- The values of its parameters. -/
  params : Datum := .undefined

/-! ## Reading values -/

/-- A field, read leniently. -/
def readField (d : Datum) (name : String) : Filling Datum := do
  let value ← d.property name
  if d.isDenied name then tell (.denied name)
  return value

/-- A field, read strictly at a place. -/
def readStrictly (d : Datum) (name : String) (place : Place) : Filling Datum := do
  let value ← d.strictProperty name place
  if d.isDenied name then tell (.denied name)
  return value

/-- A name, looked for among named things that do not have it. -/
def missName (name : String) : Filling Unit := do
  if commonNames.contains name then tell (.denied name)

namespace Scope

/-- The data some levels up. -/
def dataAt (s : Scope) (depth : Nat) : Datum := go depth s.data
where
  /-- Climbs one level at a time. -/
  go : Nat → Datum → Datum
    | n + 1, d => if d.truthy then go n ((d.own? "_parent").getD .undefined) else d
    | 0, d => d

/-- The value at which a path begins. -/
def start (s : Scope) : Origin → Filling Datum
  | .context 0 => return s.context
  | .context depth => return s.depths[depth]?.getD .undefined
  | .data depth => return s.dataAt depth
  | .param level index _ => readField (s.params[level]?.getD .undefined) (toString index)

/-- The value of a path, read leniently. -/
def read (s : Scope) (a : Access) : Filling Datum := do
  a.names.foldlM readField (← s.start a.origin)

/-- The value of a path, its last name read strictly. -/
def readLast (s : Scope) (a : Access) : Filling Datum := do
  if a.searches then
    let holder ← a.names.dropLast.foldlM readField (← s.start a.origin)
    readStrictly holder (a.names.getLastD "") a.place
  else s.read a

/-- How a diagnosis names the function that a tag fails to call. -/
def calleeText (s : Scope) (plain : Bool) (a : Access) : String :=
  let value :=
    if a.searches then s.strictName ++ "(...)"
    else if a.names ≠ [] then "lookupProperty(...)"
    else match a.origin with
      | .context 0 => "depth0"
      | .context depth => "depths[" ++ toString depth ++ "]"
      | .data _ => "data"
      | .param level index _ =>
        "blockParams[" ++ toString level ++ "][" ++ toString index ++ "]"
  if plain then "(lookupProperty(...) || " ++ value ++ ").call" else value ++ ".call"

/-- The context as helpers see it: an empty object stands for none. -/
def helperContext (s : Scope) : Datum :=
  match s.context with
  | .undefined | .null => .object 0 []
  | d => d

/-- The surroundings of the declarations in the routine of a block that is made here. -/
def forDeclarations (s : Scope) : Scope :=
  { s with
    context := s.depths.headD .undefined, strictName := "container.strict", helpers := false }

end Scope

/-- The contexts of a block that is entered with a context. -/
def enterDepths (context : Datum) (depths : List Datum) : List Datum :=
  let isEmptyObject := context matches .object 0 _
  let outer := depths.headD .undefined
  if context.same outer || (isEmptyObject && outer matches .null) then depths
  else context :: depths

/-- The data with fields of their own, inside other data. -/
def dataFrame (data : Datum) : Fields :=
  Fields.set (match data with | .object _ fields => fields | _ => []) "_parent" data

/-- The data of one turn of an iteration. -/
def turnFields (frame : Fields) (key : Datum) (index : Nat) (isLast : Bool) : Fields :=
  frame.setAll [("key", key), ("index", .number (.ofNat index)), ("first", .bool (index = 0)),
    ("last", .bool isLast)]

/-- The name under which the body of a partial is found. -/
def partialBlockName : String := "partial-block"

/-- The named arguments in the order in which they are evaluated: the last one first, but those
that are named by numbers before all others; of several with one name the first counts. -/
def evaluationOrder (named : List (String × Operand)) : List (String × Operand) :=
  let put (order : List (String × Operand)) (arg : String × Operand) : List (String × Operand) :=
    if order.any (·.1 = arg.1) then order.map fun a => if a.1 = arg.1 then arg else a
    else
      let before := fun a : String × Operand => Fields.standsBefore arg.1 (a.1, .undefined)
      order.takeWhile before ++ arg :: order.dropWhile before
  (named.reverse.foldl put []).filter fun (name, o) =>
    name ≠ "__proto__" && !(o matches .literal .undefined)

/-! ## Texts of routines -/

/-- What a step writes.  What a block writes that may name a helper stands for itself; everything
else is put together with what stands beside it first. -/
inductive Written where
  /-- Beside others. -/
  | inline (d : Datum)
  /-- By itself. -/
  | alone (d : Datum)

/-- What some values make side by side. -/
def besideAll : List Datum → Datum
  | [] => .string ""
  | d :: rest => rest.foldl Datum.beside d

/-- The values at the beginning that are written beside each other, and what follows. -/
def takeInline : List Written → List Datum × List Written
  | .inline d :: rest =>
    let (values, rest) := takeInline rest
    (d :: values, rest)
  | rest => ([], rest)

/-- What is written in all, after what was written before. -/
def continueWith : Nat → Datum → List Written → Datum
  | 0, before, _ => before
  | fuel + 1, before, written =>
    match written with
    | [] => before
    | .alone d :: rest =>
      let isNone := d matches .undefined | .null
      continueWith fuel (if isNone then before else before.beside d) rest
    | rest =>
      match takeInline rest with
      | (values, []) => values.foldl Datum.beside before
      | (values, rest) => continueWith fuel (before.beside (besideAll values)) rest

/-- What a routine comes to, from what its steps write. -/
def assemble (single : Bool) (written : List Written) : Datum :=
  match single, written with
  | true, [.inline d] | true, [.alone d] => d.shown
  | _, written =>
    let (values, rest) := takeInline written
    continueWith (written.length + 1) (besideAll values) rest

/-- The text with an indentation before each of its lines. -/
def indentLines (indent : String) (text : String) : String :=
  let lines := split '\n' text.toList
  let last := lines.length - 1
  String.ofList <| join '\n' <| lines.zipIdx.map fun (line, i) =>
    if line = [] && i = last then line else indent.toList ++ line

/-! ## Evaluation -/

/-- A block as it is written in a tag: its body and its inverse. -/
abbrev Bodies := Option (Option Routine × Option Routine)

/-- The same with what they were met in. -/
abbrev Blocks := Option (Block × Block)

mutual

/-- The block of a routine that is met here. -/
def enclose : (fuel : Nat) → Scope → Routine → Filling Block
  | 0, _, _ => throw .tooDeep
  | fuel + 1, s, r => do
    return .routine r s.data s.params s.depths (← declarations fuel s.forDeclarations r.steps)

/-- `enclose` where there may be no routine. -/
def encloseOption : (fuel : Nat) → Scope → Option Routine → Filling Block
  | 0, _, _ => throw .tooDeep
  | _ + 1, _, none => return .nothing
  | fuel + 1, s, some r => enclose fuel s r

/-- The blocks of a tag. -/
def encloseBodies : (fuel : Nat) → Scope → Bodies → Filling Blocks
  | 0, _, _ => throw .tooDeep
  | _ + 1, _, none => return none
  | fuel + 1, s, some (body, inverse) => do
    let body ← encloseOption fuel s body
    let inverse ← encloseOption fuel s inverse
    return some (body, inverse)

/-- The partials that some steps declare. -/
def declarations : (fuel : Nat) → Scope → List Step → Filling Fields
  | 0, _, _ => throw .tooDeep
  | fuel + 1, s, steps =>
    steps.foldlM (fun declared step =>
      match step with
      | .declare name args named body => do
        if name ≠ "inline" then
          missName name
          throw (.noDecorator name)
        let _ ← evaluateNamed fuel s named
        let value ← match body with
          | some r => do pure (Datum.block (← enclose fuel s r))
          | none => pure .undefined
        let args ← evaluateAll fuel s args
        return declared.set (args.headD .undefined).text value
      | _ => return declared) []

/-- Enters a block with a context. -/
def enterBlock : (fuel : Nat) → Fields → Block → Datum → Given → Filling Datum
  | 0, _, _, _, _ => throw .tooDeep
  | _ + 1, _, .nothing, _, _ => return .string ""
  | fuel + 1, partials, .routine r data params depths declared, context, given => do
    run fuel r
      { context, depths := enterDepths context depths
        data := given.data.getD data
        params := given.params :: params
        partials := partials.setAll declared
        strictName := r.strictName }
  | fuel + 1, partials, .body inner around, context, given => do
    let frame := (dataFrame (given.data.getD .undefined)).set partialBlockName around
    enterBlock fuel partials inner context { given with data := some (← newObject frame) }

/-- What a routine comes to. -/
def run : (fuel : Nat) → Routine → Scope → Filling Datum
  | 0, _, _ => throw .tooDeep
  | fuel + 1, r, s => do
    let passes := r.steps.any Step.innerUsesParams
    let (written, _) ← r.steps.foldlM (fun (written, passes) step => do
      let passes := passes || step.usesParams
      let more ← runStep fuel s passes step
      return (written ++ more, passes)) (([] : List Written), passes)
    return assemble r.single written

/-- What a step writes.  `passes` tells whether the block parameters are passed on. -/
def runStep : (fuel : Nat) → Scope → Bool → Step → Filling (List Written)
  | 0, _, _, _ => throw .tooDeep
  | _ + 1, _, _, .text text => return [.inline (.string text)]
  | _ + 1, _, _, .declare .. => return []
  | fuel + 1, s, passes, .write asking => do
    return [.inline (← ask fuel s passes asking none).shown]
  | fuel + 1, s, passes, .block asking body inverse => do
    let d ← ask fuel s passes asking (some (body, inverse))
    return [if asking matches .either .. then .alone d else .inline d.shown]
  | fuel + 1, s, passes, .partialCall name arg named body indent => do
    let d ← callPartial fuel s passes name arg named body
    if indent = "" then return [.inline d.shown]
    else match d with
      | .string text => return [.inline (.string (indentLines indent text))]
      | _ => throw (.notCallable "result.split")

/-- What a tag shows. -/
def ask : (fuel : Nat) → Scope → Bool → Asking → Bodies → Filling Datum
  | 0, _, _, _, _ => throw .tooDeep
  | fuel + 1, s, _, .call callee args named, bodies => call fuel s callee args named bodies
  | fuel + 1, s, passes, .either name access, bodies => do
    missName name
    let value ← s.readLast access
    let blocks ← encloseBodies fuel s bodies
    let result ← match value with
      | .block b => do
        let options ← optionsObject fuel s passes name blocks
        enterBlock fuel s.partials b options {}
      | d => pure d
    match blocks with
    | none => return result
    | some (body, inverse) => enterFor fuel s passes result body inverse
  | fuel + 1, s, passes, .value access, bodies => do
    let value ← s.readLast access
    let value ← applyValue fuel s value
    match bodies with
    | none => return value
    | some (body, inverse) =>
      let body ← encloseOption fuel s body
      let inverse ← encloseOption fuel s inverse
      enterFor fuel s passes value body inverse

/-- What a block sees when it is called like a helper without arguments. -/
def optionsObject : (fuel : Nat) → Scope → Bool → String → Blocks → Filling Datum
  | 0, _, _, _, _ => throw .tooDeep
  | _ + 1, s, passes, name, blocks => do
    let inner : Fields := match blocks with
      | none => []
      | some (body, inverse) => [("fn", .block body), ("inverse", .block inverse)]
    let hash ← newObject []
    let params ← newList s.params []
    let place ← newObject []
    newObject <| [("name", .string name), ("hash", hash)] ++ inner ++ [("data", s.data)] ++
      (if passes then [("blockParams", params)] else []) ++ [("loc", place)]

/-- A value, or what it comes to if it is a block. -/
def applyValue : (fuel : Nat) → Scope → Datum → Filling Datum
  | 0, _, _ => throw .tooDeep
  | fuel + 1, s, .block b => enterBlock fuel s.partials b .undefined {}
  | _ + 1, _, d => return d

/-- What a block without a helper comes to for a value. -/
def enterFor : (fuel : Nat) → Scope → Bool → Datum → Block → Block → Filling Datum
  | 0, _, _, _, _, _ => throw .tooDeep
  | fuel + 1, s, passes, value, body, inverse =>
    match value with
    | .bool true => enterBlock fuel s.partials body s.context {}
    | .bool false | .undefined | .null => enterBlock fuel s.partials inverse s.context {}
    | .list _ [] _ => enterBlock fuel s.partials inverse s.context {}
    | .list .. => iterate fuel s value (some (body, inverse))
    | d => do
      let params ← if passes then newList s.params [] else pure .undefined
      enterBlock fuel s.partials body d { data := some s.data, params }

/-- The value of an argument. -/
def evaluate : (fuel : Nat) → Scope → Operand → Filling Datum
  | 0, _, _ => throw .tooDeep
  | _ + 1, _, .literal value => return value.datum
  | _ + 1, s, .path access => s.read access
  | fuel + 1, s, .param access => do applyValue fuel s (← s.readLast access)
  | fuel + 1, s, .call callee args named => call fuel s callee args named none

/-- The values of some arguments. -/
def evaluateAll : (fuel : Nat) → Scope → List Operand → Filling (List Datum)
  | 0, _, _ => throw .tooDeep
  | fuel + 1, s, args => args.mapM (evaluate fuel s)

/-- The values of some named arguments. -/
def evaluateNamed : (fuel : Nat) → Scope → List (String × Operand) → Filling Fields
  | 0, _, _ => throw .tooDeep
  | fuel + 1, s, named =>
    (evaluationOrder named).mapM fun (name, o) => do return (name, ← evaluate fuel s o)

/-- The value of a call. -/
def call : (fuel : Nat) → Scope → Callee → List Operand → List (String × Operand) → Bodies →
    Filling Datum
  | 0, _, _, _, _, _ => throw .tooDeep
  | fuel + 1, s, callee, args, named, bodies => do
    match callee with
    | .helper helper _ =>
      if !s.helpers then throw (.outOfReach "helpers")
      if helper = .reserved then throw (.noHolder "undefined" "call")
      let args ← evaluateAll fuel s args
      let named ← evaluateNamed fuel s named
      let blocks ← encloseBodies fuel s bodies
      applyHelper fuel s helper args named blocks
    | .member name plain access =>
      if plain then
        if !s.helpers then throw (.outOfReach "helpers")
        missName name
      let value ← s.readLast access
      match value with
      | .undefined | .null => throw (.noHolder value.text "call")
      | _ =>
        let args ← evaluateAll fuel s args
        let _ ← evaluateNamed fuel s named
        let blocks ← encloseBodies fuel s bodies
        match value, args with
        | .block b, [] => do
          let options ← optionsObject fuel s false name blocks
          enterBlock fuel s.partials b options {}
        | .block b, [d] => enterBlock fuel s.partials b d { data := some s.data }
        | .block b, d :: _ => enterBlock fuel s.partials b d {}
        | _, _ => throw (.notCallable (s.calleeText plain access))

/-- What a built-in helper yields. -/
def applyHelper : (fuel : Nat) → Scope → Helper → List Datum → Fields → Blocks → Filling Datum
  | 0, _, _, _, _, _ => throw .tooDeep
  | fuel + 1, s, helper, args, named, blocks =>
    let choose (d : Datum) (exchanged : Bool) : Filling Datum := do
      let d ← applyValue fuel s d
      let holds :=
        (((named.get? "includeZero").getD .undefined).truthy || d.truthy) && !d.isEmpty
      match blocks with
      | none => throw (.notCallable (if holds then "options.fn" else "options.inverse"))
      | some (body, inverse) =>
        enterBlock fuel s.partials (if holds != exchanged then body else inverse) s.helperContext {}
    match helper, args with
    | .if_, [d] => choose d false
    | .if_, _ => throw (.oneArgument "if")
    | .unless, [d] => choose d true
    | .unless, _ => throw (.oneArgument "unless")
    | .with_, [d] => do
      let d ← applyValue fuel s d
      match blocks with
      | none => throw (.notCallable (if d.isEmpty then "options.inverse" else "fn"))
      | some (body, inverse) =>
        if d.isEmpty then enterBlock fuel s.partials inverse s.helperContext {}
        else
          enterBlock fuel s.partials body d
            { data := some s.data, params := ← newList [d] [.undefined] }
    | .with_, _ => throw (.oneArgument "with")
    | .log, _ => do
      let level := match named.get? "level" with
        | some .undefined | some .null | none => Datum.number (.ofNat 1)
        | some d => d
      if let some notice := messageNotice? level args then tell notice
      return .undefined
    | .reserved, _ => throw (.noHolder "undefined" "call")
    | .lookup, [] => throw (.noHolder "undefined" "lookupProperty")
    | .lookup, [d] =>
      if d.truthy then throw (.noHolder "undefined" "lookupProperty") else return d
    | .lookup, [d, name] => if d.truthy then readField d name.text else return d
    | .lookup, d :: _ :: options :: _ =>
      if !d.truthy then return d
      else match options with
        | .undefined | .null => throw (.noHolder options.text "lookupProperty")
        | _ => throw (.notCallable "options.lookupProperty")
    | .each, [] => throw .noIterator
    | .each, [d] => do iterate fuel s (← applyValue fuel s d) blocks
    | .each, d :: options :: _ => do
      if !options.truthy then throw .noIterator
      iterate fuel s (← applyValue fuel s d) none

/-- The texts of a block for each item of a value, or its inverse if there is none. -/
def iterate : (fuel : Nat) → Scope → Datum → Blocks → Filling Datum
  | 0, _, _, _ => throw .tooDeep
  | fuel + 1, s, value, blocks => do
    let items : List (Datum × Datum × Datum) := match value with
      | .object _ fields =>
        fields.map fun (name, d) => (.string name, d, .string ("undefined" ++ name))
      | .list _ items _ =>
        items.zipIdx.map fun (d, i) => (.number (.ofNat i), d, .number .nan)
      | _ => []
    match blocks with
    | none => throw (.notCallable (if items = [] then "inverse" else "fn"))
    | some (body, inverse) =>
      if items = [] then enterBlock fuel s.partials inverse s.helperContext {}
      else
        let mark ← newMark
        let frame := dataFrame s.data
        items.zipIdx.foldlM (fun text ((key, d, path), i) => do
          let data := Datum.object mark (turnFields frame key i (i + 1 = items.length))
          let params ← newList [d, key] [path, .null]
          let more ← enterBlock fuel s.partials body d { data := some data, params }
          return text.beside more) (Datum.string "")

/-- What a partial comes to; a body given with the call stands in for a partial that is missing. -/
def callPartial : (fuel : Nat) → Scope → Bool → PartialName → Option Operand →
    List (String × Operand) → Option Routine → Filling Datum
  | 0, _, _, _, _, _, _ => throw .tooDeep
  | fuel + 1, s, passes, name, arg, named, body => do
    let computed ← match name with
      | .computed o => do pure (some (← evaluate fuel s o))
      | .fixed name => do
        if (s.partials.get? name).isNone then missName name
        pure none
    let own ← match arg with
      | some o => evaluate fuel s o
      | none => pure s.context
    let hash ← evaluateNamed fuel s named
    let body ← body.mapM (enclose fuel s)
    let context ←
      if named = [] then pure own else newObject ((Fields.setAll [] own.fields).setAll hash)
    let around := (s.data.own? partialBlockName).getD .undefined
    let (shownName, found) : String × Datum := match name, computed with
      | _, some (.block b) => ("", .block b)
      | _, some d =>
        let name := if d.truthy then d.text else "undefined"
        (name, (s.partials.get? name).getD .undefined)
      | .fixed name, none =>
        match s.partials.get? name with
        | some (.block b) => (name, .block b)
        | _ => (name, if name = "@partial-block" then around else .undefined)
      | .computed _, none => ("undefined", .undefined)
    let ownBody := body.map fun b => Block.body b around
    let data ← match ownBody with
      | some b => newObject ((dataFrame s.data).set partialBlockName (.block b))
      | none => pure s.data
    let params ← if passes then newList s.params [] else pure .undefined
    match found, ownBody with
    | .block b, _ | .undefined, some b =>
      enterBlock fuel s.partials b context { data := some data, params }
    | _, _ => throw (.noPartial shownName)

end

/-! ## Checks before the evaluation -/

/-- A partial takes at most one argument. -/
def checkPartial (call : Call) (place : Place) : Except Fault Unit :=
  if 1 < call.args.length then .error (.partialArguments call.args.length place) else .ok ()

mutual

/-- Checks the partials of a statement. -/
def checkStatement : Statement → Except Fault Unit
  | .partialCall call _ place _ => checkPartial call place
  | .block flavour call body inverse _ _ _ place => do
    checkOption body
    checkOption inverse
    if flavour = .partialBlock then checkPartial call place
  | _ => .ok ()

/-- `checkProgram` where there may be none. -/
def checkOption : Option Program → Except Fault Unit
  | none => .ok ()
  | some p => checkProgram p

/-- Checks the partials of a program. -/
def checkProgram : Program → Except Fault Unit
  | .mk statements _ _ => checkAll statements

/-- Checks the partials of some statements. -/
def checkAll : List Statement → Except Fault Unit
  | [] => .ok ()
  | s :: rest => do
    checkStatement s
    checkAll rest

end

/-! ## Rendering -/

/-- What a rendering yields: its text, if it has one, and its notices. -/
structure Rendering where
  /-- The text. -/
  text : Except Fault String
  /-- The notices. -/
  notices : List Notice := []

/-- What a routine comes to for a whole template. -/
def runTemplate (fuel : Nat) (r : Routine) (context : Fields) : Filling String := do
  let context := Datum.object 1 context
  let data ← newObject [("root", context)]
  let outside : Scope :=
    { context := .undefined, depths := [], data, params := [], partials := [], helpers := false }
  let declared ← declarations fuel outside r.steps
  let text ← run fuel r
    { context, depths := [context], data, params := [], partials := declared
      strictName := r.strictName }
  return text.text

/-- The rendering of a template in a context. -/
def rendering (template : String) (context : Fields) : Rendering :=
  match read template with
  | .error fault => { text := .error fault }
  | .ok p =>
    match checkProgram p with
    | .error fault => { text := .error fault }
    | .ok () =>
      let r := (trimTemplate p).sharedRoutine
      let (text, session) := (runTemplate (16 * template.length + 2000) r context).run {}
      { text, notices := session.notices }

/-- The text of a template in a context. -/
def render (template : String) (context : Fields) : Except Fault String :=
  (rendering template context).text

end GoldenRun.Template
