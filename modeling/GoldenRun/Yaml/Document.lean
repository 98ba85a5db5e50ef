import GoldenRun.Text.Split
import GoldenRun.Yaml.Node
import GoldenRun.Yaml.Snippet

/-!
# Documents

A text holds one document, perhaps with directives before it.  An empty text holds none, and a
text with several is refused.  `load` reads the text of a file; the errors name the file and show
the lines around the fault.
-/

namespace GoldenRun.Yaml

open GoldenRun.Text GoldenRun.Number Reading

/-- A directive: its name and its arguments. -/
structure Directive where
  /-- The name. -/
  name : List Char
  /-- The arguments. -/
  args : List (List Char)

/-- Whether a character belongs to a word of a directive. -/
def isWordChar (c : Char) : Bool := !isSpacing c

/-- Reads the arguments of a directive; they end with the line or with a comment. -/
def directiveArgs : Nat → List (List Char) → Reading (List (List Char))
  | 0, reversed => return reversed.reverse
  | fuel + 1, reversed => do
    move (·.skipWhile isWhite)
    let c ← cursor
    if c.sees '#' then
      moveTo c.skipToBreak
      return reversed.reverse
    else if c.atBreak || c.atEnd then return reversed.reverse
    else
      moveTo (c.skipWhile isWordChar)
      directiveArgs fuel (c.ahead isWordChar :: reversed)

/-- Reads a directive behind its percent sign, with the end of its line. -/
def directive : Reading Directive := do
  let c ← cursor
  let name := c.ahead isWordChar
  moveTo (c.skipWhile isWordChar)
  if name = [] then fail .namelessDirective
  let args ← directiveArgs (c.rest.length + 1) []
  let d ← cursor
  if !d.atEnd then
    if d.atBreak then moveTo d.nextLine else fail .lineBreak
  return ⟨name, args⟩

/-- The major version of a version number. -/
def majorVersion? (text : List Char) : Option Nat :=
  match split '.' text with
  | [major, minor] =>
    if major ≠ [] ∧ minor ≠ [] ∧ (major ++ minor).all Char.isDigit then some (digitsValue 10 major)
    else none
  | _ => none

/-- Carries out a version declaration. -/
def declareVersion (versions : Nat) (args : List (List Char)) : Reading Unit := do
  if versions ≠ 0 then fail .repeatedVersion
  match args with
  | [version] =>
    match majorVersion? version with
    | none => fail .illFormedVersion
    | some major => if major ≠ 1 then fail .unknownVersion
  | _ => fail .versionArguments

/-- Carries out a declaration of a tag handle. -/
def declareHandle (args : List (List Char)) : Reading Unit := do
  match args with
  | [handle, start] =>
    let name := String.ofList handle
    if !isHandle handle then fail .illFormedHandle
    else if (← get).handles.any (·.1 = name) then fail (.repeatedHandle name)
    else if !isTagName start then fail .illFormedPrefix
    else match percentDecode start with
      | none => fail (.malformedPrefix (String.ofList start))
      | some start => modify fun s => { s with handles := (name, start) :: s.handles }
  | _ => fail .handleArguments

/-- Reads the directives before a document; the answer is their number.  Unknown ones are passed
over. -/
def directives : Nat → Nat → Nat → Reading Nat
  | 0, _, count => return count
  | fuel + 1, versions, count => do
    if (← cursor).atEnd then return count
    skipSeparation
    let c ← cursor
    if 0 < c.indent || !c.sees '%' then return count
    else
      moveTo c.advance
      let d ← directive
      if d.name = "YAML".toList then
        declareVersion versions d.args
        directives fuel (versions + 1) (count + 1)
      else
        if d.name = "TAG".toList then declareHandle d.args
        directives fuel versions (count + 1)

/-- Reads one document, with the mark behind it. -/
def document : Reading Value := do
  modify fun s => { s with anchors := #[], handles := [] }
  let count ← directives ((← cursor).rest.length + 1) 0 0
  skipSeparation
  let c ← cursor
  if c.indent = 0 && c.rest.take 3 = ['-', '-', '-'] then
    moveTo c.advance.advance.advance
    skipSeparation
  else if count ≠ 0 then fail .directivesEnd
  let indent : Int := (← cursor).indent
  let node ← compose depthLimit (indent - 1) .blockOut false true
  skipSeparation
  let d ← cursor
  if d.atDocumentMark then
    if d.sees '.' then
      moveTo d.advance.advance.advance
      skipSeparation
  else if 2 ≤ d.rest.length then fail .documentEnd
  return node.value

/-- Reads all documents. -/
def documents : Nat → List Value → Reading (List Value)
  | 0, reversed => return reversed.reverse
  | fuel + 1, reversed => do
    if (← cursor).rest.length < 2 then return reversed.reverse
    else documents fuel ((← document) :: reversed)

/-- A text as it is read: its last line ended, and without a byte order mark. -/
def prepare (text : List Char) : List Char :=
  let ended := match text.getLast? with
    | some c => if isBreak c then text else text ++ ['\n']
    | none => text
  match ended with
  | c :: rest => if c.toNat = 0xFEFF then rest else ended
  | [] => []

/-- The cursor at the beginning of a text. -/
def Cursor.start (text : List Char) : Cursor :=
  ({ rest := text } : Cursor).skipIndent

/-- An error from a flaw in a text. -/
def Flaw.toError (name : Option String) (text : List Char) (flaw : Flaw) : Error where
  fault := flaw.fault
  mark :=
    if flaw.fault.isOfDocument then some
      { name := name.filter (· ≠ "")
        line := some flaw.line
        column := some ((flaw.offset : Int) - flaw.lineStart)
        snippet := snippet text flaw.offset flaw.line }
    else none

/-- The document in a text, if there is one.  `name` is the name of the file. -/
def load (name : Option String) (text : String) : Except Error (Option Value) :=
  let text := prepare text.toList
  if text.contains '\x00' then
    let offset := width (text.takeWhile (· ≠ '\x00'))
    .error (Flaw.toError name text.dropLast ⟨.nul, offset, 0, 0⟩)
  else match (documents (text.length + 1) []).run { cursor := Cursor.start text } with
    | .error flaw => .error (flaw.toError name text)
    | .ok ([], _) => .ok none
    | .ok ([value], _) => .ok (some value)
    | .ok _ => .error ⟨.moreDocuments, none⟩

end GoldenRun.Yaml
