import GoldenRun.Number.Numeral
import GoldenRun.Template.Scan
import GoldenRun.Template.Tree

/-!
# From tokens to the tree

The tree is built token by token.  The builder keeps the blocks that are open, the statements of
the program being read, and the tag being read with its calls in parentheses.  A name or another
atom is finished by the token behind it, and so is a block, because a diagnosis of the next token
comes before any complaint about what was just closed.

What a diagnosis lists depends on where the builder stands:

* behind an atom, every token that may follow an atom in some tag;
* elsewhere in a tag, what may follow in this tag;
* at the beginning of a program, a statement or what may end the program;
* behind a statement, what may end the program.
-/

namespace GoldenRun.Template

open GoldenRun.Number

/-! ## What may come next -/

/-- The kinds of a list, in the order of diagnoses. -/
def inOrder (kinds : List TokenKind) : List TokenKind := TokenKind.listed.filter kinds.contains

/-- The tokens that begin a name or a literal. -/
def nameStarters : List TokenKind := [.id, .string, .number, .boolean, .undefined, .null, .data]

/-- The tokens that begin an argument. -/
def argStarters : List TokenKind := .openSexpr :: nameStarters

/-- The closers of tags and calls. -/
def closers : List TokenKind := [.closeRawBlock, .close, .closeUnescaped, .closeSexpr]

/-- The tokens that may follow an atom in some tag. -/
def atomFollowers : List TokenKind := closers ++ argStarters ++ [.openBlockParams]

/-- The tokens that may follow the value of a named argument in some tag. -/
def valueFollowers : List TokenKind := closers ++ [.id, .openBlockParams]

/-- The tokens that begin a statement. -/
def statementStarters : List TokenKind :=
  [.comment, .content, .openRawBlock, .openBlock, .openInverse, .opener, .openUnescaped,
    .openPartial, .openPartialBlock]

namespace TokenKind

/-- The closer of the tag that an opener begins. -/
def closer : TokenKind → TokenKind
  | openRawBlock => closeRawBlock
  | openUnescaped => closeUnescaped
  | _ => close

/-- Whether the tag that an opener begins may name block parameters. -/
def takesParams : TokenKind → Bool
  | openBlock | openInverse | openInverseChain => true
  | _ => false

/-- Whether the tag that an opener begins calls a partial. -/
def isPartial : TokenKind → Bool
  | openPartial | openPartialBlock => true
  | _ => false

end TokenKind

/-! ## The state of the builder -/

/-- One name of a path, as written. -/
structure Segment where
  /-- The separator before it. -/
  separator : String
  /-- The token's text. -/
  written : String
  deriving DecidableEq, Repr

/-- What the innermost call waits for. -/
inductive Slot where
  /-- What is called. -/
  | head
  /-- An argument or the end. -/
  | argument
  /-- The name of a further named argument or the end. -/
  | name
  /-- The equals sign behind a name. -/
  | equals (key : String)
  /-- The value of a named argument. -/
  | value (key : String)
  /-- The first block parameter. -/
  | firstParam
  /-- A further block parameter or their end. -/
  | param
  /-- The end of the tag. -/
  | finish
  deriving DecidableEq, Repr

/-- An atom that the next token finishes. -/
inductive Pending where
  /-- There is none. -/
  | nothing
  /-- The mark of a data name. -/
  | mark (place : Place)
  /-- A path, its last name in front; `key` tells whether it may turn out to be the name of an
  argument. -/
  | path (data key : Bool) (segments : List Segment) (place : Place)
  /-- A path with a separator at its end. -/
  | separated (data : Bool) (segments : List Segment) (separator : String) (place : Place)
  /-- A whole atom. -/
  | atom (e : Expr)

/-- A call being read. -/
structure Level where
  /-- Where it begins. -/
  place : Place
  /-- What is called. -/
  head : Option Expr := none
  /-- The arguments so far, last first. -/
  args : List Expr := []
  /-- The named arguments so far, last first. -/
  named : List (String × Expr) := []
  /-- What it waits for. -/
  slot : Slot := .head

/-- The call that was read. -/
def Level.call (level : Level) : Call :=
  ⟨level.head.getD (.literal .undefined level.place), level.args.reverse, level.named.reverse⟩

/-- A tag being read. -/
structure Tag where
  /-- Its opener. -/
  opener : Token
  /-- The innermost call. -/
  level : Level
  /-- The calls around it, innermost first. -/
  outer : List Level := []
  /-- The atom that the next token finishes. -/
  pending : Pending := .nothing
  /-- The block parameters so far, last first. -/
  params : Option (List String) := none

/-- The opening tag of a block or of a branch. -/
structure Opening where
  /-- Its opener. -/
  opener : Token
  /-- What it calls. -/
  call : Call
  /-- The block parameters. -/
  params : Option (List String)
  /-- The blanks to take away. -/
  strip : Strip

/-- An open block. -/
structure Frame where
  /-- The statements before it, last first. -/
  before : List Statement
  /-- Its opening tag. -/
  opening : Opening
  /-- The finished branches with their opening tags, last first. -/
  branches : List (Opening × Program) := []
  /-- The opening tag of the branch being read; there is none for the last, unconditional one. -/
  current : Option Opening
  /-- The blanks to take away around the tag of the last branch. -/
  inverseStrip : Strip := {}

/-- The closing tag of a block. -/
structure Closing where
  /-- The name under which the block is closed. -/
  name : Literal
  /-- The blanks to take away. -/
  strip : Strip

/-- What has been read. -/
structure Builder where
  /-- The open blocks, innermost first. -/
  frames : List Frame := []
  /-- The statements of the program being read, last first. -/
  body : List Statement := []
  /-- The tag being read. -/
  tag : Option Tag := none
  /-- The raw block being read, with its contents, last first. -/
  raw : Option (Opening × List Content) := none
  /-- The closing tag that the next token confirms. -/
  closing : Option Closing := none
  /-- The number of line ends up to the last token. -/
  lineEnds : Nat := 0
  /-- The whole template, at the end. -/
  result : Option Program := none

/-! ## Atoms -/

/-- A name without the square brackets around it. -/
def unbracket (written : String) : String :=
  match written.toList with
  | '[' :: rest =>
    match rest.reverse with
    | ']' :: body =>
      if body.any fun c => c = '\n' || c = '\r' || c.toNat = 0x2028 || c.toNat = 0x2029 then written
      else String.ofList body.reverse
    | _ => written
  | _ => written

/-- The path that some names make; only its first names may climb. -/
def makePath (data : Bool) (segments : List Segment) (place : Place) : Except Fault NamePath :=
  go (if data then "@" else "") 0 [] segments
where
  /-- The path so far: as written, its depth, and its names, last first. -/
  go (written : String) (depth : Nat) (names : List String) :
      List Segment → Except Fault NamePath
    | [] => .ok ⟨data, depth, names.reverse, written, place⟩
    | s :: rest =>
      let part := unbracket s.written
      let written := written ++ s.separator ++ part
      if part = s.written ∧ (part = ".." ∨ part = "." ∨ part = "this") then
        if names ≠ [] then .error (.invalidPath written place)
        else go written (if part = ".." then depth + 1 else depth) names rest
      else go written depth (part :: names) rest

/-- The literal that a token is.  A zero has no sign. -/
def literalOf (t : Token) : Literal :=
  match t.kind with
  | .string => .string t.text
  | .number =>
    let x := readNumeral t.text
    .number (if x.isZero then .zero false else x)
  | .boolean => .bool (t.text = "true")
  | .null => .null
  | _ => .undefined

/-- What a head is called, where names are compared. -/
def headName : Expr → Literal
  | .path p => .string p.written
  | .literal value _ => value
  | .call .. => .undefined

/-- The blanks that two tokens, or one at both ends, take away. -/
def stripOf (start finish : Token) : Strip :=
  ⟨start.text.toList[2]? = some '~', (finish.text.toList.reverse)[2]? = some '~'⟩

/-! ## Blocks -/

/-- Whether an opener begins a declaration. -/
def Token.isDecorator (t : Token) : Bool := t.text.toList.contains '*'

/-- A block can only be closed under its own name. -/
def checkClosing (opening : Opening) (name : Literal) : Except Fault Unit :=
  if headName opening.call.head = name then .ok ()
  else
    .error (.unmatched (headName opening.call.head).text name.text opening.call.head.place)

/-- An inverse branch: the blanks around its tag, its program, and whether it is conditional. -/
structure Branch where
  /-- The blanks to take away. -/
  strip : Strip
  /-- The program. -/
  program : Program

/-- The block with other blanks to take away around its closing tag. -/
def withCloseStrip (strip : Strip) : Statement → Statement
  | .block flavour call body inverse openStrip inverseStrip _ place =>
    .block flavour call body inverse openStrip inverseStrip strip place
  | s => s

/-- A chained branch takes over the blanks of the tag that closes it. -/
def Branch.closedBy (branch : Branch) (strip : Strip) : Branch :=
  if branch.program.chained then
    { branch with
      program := branch.program.withStatements
        (branch.program.statements.map (withCloseStrip strip)) }
  else branch

/-- The block of one conditional branch. -/
def branchBlock (flavour : BlockFlavour) (opening : Opening) (program : Program)
    (inverse : Option Branch) (closeStrip : Strip) : Statement :=
  let inverse := inverse.map (·.closedBy closeStrip)
  .block flavour opening.call (some (program.withParams opening.params))
    (inverse.map (·.program)) opening.strip ((inverse.map (·.strip)).getD {}) closeStrip
    opening.opener.place

/-- The inverse branch that further conditional branches make, the last of them in front. -/
def chainBranches (last : Option Branch) : List (Opening × Program) → Option Branch
  | [] => last
  | (opening, program) :: earlier =>
    let block := branchBlock .plain opening program last ((last.map (·.strip)).getD {})
    chainBranches (some ⟨opening.strip, .mk [block] none true⟩) earlier

/-- The block that a frame makes when it is closed. -/
def Frame.close (frame : Frame) (body : List Statement) (closing : Closing) :
    Except Fault Statement := do
  checkClosing frame.opening closing.name
  let program := Program.mk body.reverse none false
  let (branches, last) : List (Opening × Program) × Option Branch :=
    match frame.current with
    | some opening => ((opening, program) :: frame.branches, none)
    | none => (frame.branches, some ⟨frame.inverseStrip, program⟩)
  let opening := frame.opening
  let first := (branches.getLast?.map (·.2)).getD program
  match opening.opener.kind with
  | .openInverse =>
    return .block .plain opening.call (last.map (·.program))
      (some (first.withParams opening.params)) opening.strip ((last.map (·.strip)).getD {})
      closing.strip opening.opener.place
  | .openPartialBlock => return branchBlock .partialBlock opening first none closing.strip
  | _ =>
    let inverse := chainBranches last branches.dropLast
    if opening.opener.isDecorator then
      if inverse.isSome then throw .decoratorInverse
      else return branchBlock .decorator opening first none closing.strip
    else return branchBlock .plain opening first inverse closing.strip

/-- The tokens that may end the program of the innermost block. -/
def enders : List Frame → List TokenKind
  | [] => [.eof]
  | frame :: _ =>
    match frame.opening.opener.kind, frame.current with
    | .openPartialBlock, _ => [.openEndBlock]
    | _, none => [.openEndBlock]
    | .openInverse, _ => [.inverse, .openEndBlock]
    | _, _ => [.openInverseChain, .inverse, .openEndBlock]

/-! ## Steps -/

/-- The diagnosis of a token. -/
def Builder.unexpected (b : Builder) (t : Token) (expected : List TokenKind) : Fault :=
  .unexpected (b.lineEnds + 1) t.surrounding (inOrder expected) t.kind

/-- The tokens that may end the innermost call of a tag. -/
def Tag.enders (tag : Tag) : List TokenKind :=
  if tag.outer ≠ [] then [.closeSexpr]
  else tag.opener.kind.closer :: if tag.opener.kind.takesParams then [.openBlockParams] else []

/-- Puts an atom where the innermost call waits for one. -/
def Level.accept (level : Level) (e : Expr) : Level :=
  match level.slot with
  | .value key => { level with named := (key, e) :: level.named, slot := .name }
  | .head => { level with head := some e, slot := .argument }
  | _ => { level with args := e :: level.args }

/-- Finishes the atom before a token. -/
def settle (b : Builder) (tag : Tag) (t : Token) : Except Fault Tag := do
  let finish (followers : List TokenKind) (e : Except Fault Expr) : Except Fault Tag := do
    if !followers.contains t.kind then throw (b.unexpected t followers)
    let level := tag.level.accept (← e)
    if level.slot = .name ∧ !valueFollowers.contains t.kind then
      throw (b.unexpected t valueFollowers)
    return { tag with level := level, pending := .nothing }
  match tag.pending with
  | .path data key segments place =>
    finish (.sep :: (if key then [.equals] else []) ++ atomFollowers)
      ((makePath data segments.reverse place).map .path)
  | .atom e => finish atomFollowers (.ok e)
  | _ => return tag

/-- Begins an atom. -/
def beginAtom (tag : Tag) (t : Token) : Tag :=
  match t.kind with
  | .id =>
    { tag with
      pending := .path false (tag.level.slot = .argument ∧ tag.opener.kind ≠ .openEndBlock)
        [⟨"", t.text⟩] t.place }
  | .data => { tag with pending := .mark t.place }
  | .openSexpr =>
    { tag with level := { place := t.place }, outer := tag.level :: tag.outer, pending := .nothing }
  | _ => { tag with pending := .atom (.literal (literalOf t) t.place) }

/-- Ends the tag being read. -/
def Builder.finishTag (b : Builder) (tag : Tag) (t : Token) : Builder :=
  let b := { b with tag := none }
  let call := tag.level.call
  let strip := stripOf tag.opener t
  let opening : Opening := ⟨tag.opener, call, tag.params.map List.reverse, strip⟩
  match tag.opener.kind with
  | .openRawBlock => { b with raw := some (opening, []) }
  | .openPartial => { b with body := .partialCall call strip tag.opener.place [] :: b.body }
  | .openEndBlock => { b with closing := some ⟨headName call.head, strip⟩ }
  | .openInverseChain =>
    match b.frames with
    | frame :: frames =>
      let done := frame.current.map fun o => (o, Program.mk b.body.reverse none false)
      { b with
        frames := { frame with
          branches := done.toList ++ frame.branches, current := some opening } :: frames
        body := [] }
    | [] => b
  | .opener | .openUnescaped =>
    let statement : Statement :=
      if tag.opener.isDecorator then .decorator call strip else .mustache call strip
    { b with body := statement :: b.body }
  | _ =>
    { b with
      frames := { before := b.body, opening := opening, current := some opening } :: b.frames
      body := [] }

/-- A token behind a finished atom, or where none has begun. -/
def slotStep (b : Builder) (tag : Tag) (t : Token) : Except Fault Builder := do
  let keep (tag : Tag) : Except Fault Builder := return { b with tag := some tag }
  let setSlot (slot : Slot) : Except Fault Builder :=
    keep { tag with level := { tag.level with slot := slot } }
  let ending (expected : List TokenKind) : Except Fault Builder :=
    if t.kind = .openBlockParams ∧ tag.enders.contains .openBlockParams then setSlot .firstParam
    else if t.kind = .closeSexpr ∧ tag.enders.contains .closeSexpr then
      match tag.outer with
      | level :: outer =>
        let call := tag.level.call
        keep { tag with
          level := level, outer := outer
          pending := .atom (.call call.head call.args call.named tag.level.place) }
      | [] => throw (b.unexpected t expected)
    else if t.kind = tag.opener.kind.closer ∧ tag.outer = [] then return b.finishTag tag t
    else throw (b.unexpected t expected)
  match tag.level.slot with
  | .head =>
    let expected :=
      if tag.opener.kind.isPartial ∧ tag.outer = [] then argStarters else nameStarters
    if expected.contains t.kind then keep (beginAtom tag t) else throw (b.unexpected t expected)
  | .argument =>
    if tag.opener.kind = .openEndBlock then ending [.close]
    else if argStarters.contains t.kind then keep (beginAtom tag t)
    else ending (tag.enders ++ argStarters)
  | .name =>
    if t.kind = .id then setSlot (.equals (unbracket t.text)) else ending tag.enders
  | .equals key =>
    if t.kind = .equals then setSlot (.value key) else throw (b.unexpected t [.equals])
  | .value _ =>
    if argStarters.contains t.kind then keep (beginAtom tag t)
    else throw (b.unexpected t argStarters)
  | .firstParam =>
    if t.kind = .id then
      let level := { tag.level with slot := .param }
      keep { tag with params := some [unbracket t.text], level }
    else throw (b.unexpected t [.id])
  | .param =>
    if t.kind = .id then
      keep { tag with params := some (unbracket t.text :: tag.params.getD []) }
    else if t.kind = .closeBlockParams then setSlot .finish
    else throw (b.unexpected t [.id, .closeBlockParams])
  | .finish =>
    if t.kind = .close then return b.finishTag tag t else throw (b.unexpected t [.close])

/-- A token inside a tag. -/
def tagStep (b : Builder) (tag : Tag) (t : Token) : Except Fault Builder := do
  let keep (pending : Pending) : Except Fault Builder :=
    return { b with tag := some { tag with pending := pending } }
  match tag.pending with
  | .mark place =>
    if t.kind = .id then keep (.path true false [⟨"", t.text⟩] place)
    else throw (b.unexpected t [.id])
  | .separated data segments separator place =>
    if t.kind = .id then keep (.path data false (⟨separator, t.text⟩ :: segments) place)
    else throw (b.unexpected t [.id])
  | .path data key segments place =>
    if t.kind = .sep then keep (.separated data segments t.text place)
    else if t.kind = .equals ∧ key then
      match segments with
      | s :: _ =>
        let level := { tag.level with slot := .value (unbracket s.written) }
        return { b with tag := some { tag with level := level, pending := .nothing } }
      | [] => throw (b.unexpected t [])
    else
      let tag ← settle b tag t
      slotStep b tag t
  | _ =>
    let tag ← settle b tag t
    slotStep b tag t

/-- A token inside a raw block. -/
def rawStep (b : Builder) (opening : Opening) (contents : List Content) (t : Token) :
    Except Fault Builder :=
  match t.kind with
  | .content =>
    .ok { b with raw := some (opening, ⟨t.text.toList, t.text.toList, false, false⟩ :: contents) }
  | .endRawBlock => .ok { b with closing := some ⟨.string t.text, {}⟩ }
  | _ =>
    .error <| b.unexpected t <|
      if contents = [] then [.content, .endRawBlock]
      else .endRawBlock :: .eof :: .openInverseChain :: .inverse :: .openEndBlock ::
        statementStarters

/-- Closes the block whose closing tag has been read. -/
def confirmClosing (b : Builder) : Except Fault Builder :=
  match b.closing with
  | none => .ok b
  | some closing =>
    match b.raw with
    | some (opening, contents) => do
      checkClosing opening closing.name
      let program := Program.mk (contents.reverse.map .content) none false
      let block := branchBlock .plain { opening with strip := {} } program none {}
      return { b with raw := none, closing := none, body := block :: b.body }
    | none =>
      match b.frames with
      | frame :: frames => do
        let block ← frame.close b.body closing
        return { b with frames := frames, body := block :: frame.before, closing := none }
      | [] => .ok { b with closing := none }

/-- A token where a statement may begin or the program end. -/
def statementStep (b : Builder) (t : Token) : Except Fault Builder :=
  let begin_ : Except Fault Builder :=
    .ok { b with tag := some { opener := t, level := { place := t.place } } }
  if t.kind = .content then
    .ok { b with body := .content ⟨t.text.toList, t.text.toList, false, false⟩ :: b.body }
  else if t.kind = .comment then .ok { b with body := .comment (stripOf t t) :: b.body }
  else if statementStarters.contains t.kind then begin_
  else if !(enders b.frames).contains t.kind then
    let fresh := if b.body.isEmpty then statementStarters else []
    .error (b.unexpected t (fresh ++ enders b.frames))
  else
    match t.kind, b.frames with
    | .inverse, frame :: frames =>
      let done := frame.current.map fun o => (o, Program.mk b.body.reverse none false)
      .ok { b with
        frames := { frame with
          branches := done.toList ++ frame.branches, current := none
          inverseStrip := stripOf t t } :: frames
        body := [] }
    | .eof, _ => .ok { b with result := some (.mk b.body.reverse none false) }
    | _, _ => begin_

/-- One more token. -/
def step (b : Builder) (t : Token) : Except Fault Builder := do
  let next ←
    match b.tag, b.raw, b.closing with
    | some tag, _, _ => tagStep b tag t
    | none, some (opening, contents), none => rawStep b opening contents t
    | none, _, _ => do
      let b ← confirmClosing b
      statementStep b t
  return { next with lineEnds := t.lineEnds }

/-- The tree of a list of tokens. -/
def build (tokens : Tokens) : Except Fault Program := do
  let b ← tokens.list.foldlM step {}
  match b.result, tokens.fault with
  | some p, _ => return p
  | none, some fault => throw fault
  | none, none => throw .tooDeep

/-- The tree of a template. -/
def read (template : String) : Except Fault Program := build (scan template)

end GoldenRun.Template
