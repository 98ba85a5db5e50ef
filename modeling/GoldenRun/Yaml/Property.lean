import GoldenRun.Text.Utf8
import GoldenRun.Number.Numeral
import GoldenRun.Yaml.Reading

/-!
# Tags and anchors

Before a node may stand a tag, which says how to understand it, and an anchor, which names it.  A
tag is written whole between `!<` and `>`, or as a handle with a suffix; the handle stands for a
prefix that a directive declared or that is known.  Characters of a tag may be percent-encoded.
-/

namespace GoldenRun.Yaml

open GoldenRun.Text GoldenRun.Number Reading

/-- The prefix of the standard tags. -/
def standardPrefix : String := "tag:yaml.org,2002:"

/-- The bytes of a percent-encoded text; none if a percent sign has no two digits behind it. -/
def percentBytes : List Char → Option Bytes
  | [] => some []
  | '%' :: a :: b :: rest =>
    match digitValue? a, digitValue? b with
    | some x, some y => (percentBytes rest).map (UInt8.ofNat (x * 16 + y) :: ·)
    | _, _ => none
  | '%' :: _ => none
  | c :: rest => (percentBytes rest).map (String.utf8EncodeChar c ++ ·)

/-- A percent-encoded text, decoded; none if it is no encoding of a text. -/
def percentDecode (text : List Char) : Option String :=
  (percentBytes text).bind fun bytes =>
    let decoded := decode bytes
    if encode decoded = bytes then some decoded else none

/-- Whether a character may stand unencoded in a tag. -/
def isTagChar (c : Char) : Bool :=
  c.isAlphanum || "-#;/?:@&=+$,_.!~*'()[]".toList.contains c

/-- Whether all characters of a text may stand in a tag, encoded ones included. -/
def tagChars : List Char → Bool
  | [] => true
  | '%' :: a :: b :: rest => (digitValue? a).isSome && (digitValue? b).isSome && tagChars rest
  | c :: rest => isTagChar c && tagChars rest

/-- Whether a text has the form of a tag. -/
def isTagName : List Char → Bool
  | [] => false
  | c :: rest => !isFlowMark c && c.toNat < 0x10000 && tagChars rest

/-- Whether a text has the form of a tag handle. -/
def isHandle (text : List Char) : Bool :=
  text = ['!'] || text = ['!', '!'] ||
    match text with
    | '!' :: rest =>
      rest.getLast? = some '!' && rest.dropLast ≠ [] &&
        rest.dropLast.all fun c => c.isAlphanum || c = '-'
    | _ => false

/-- A tag as it is written. -/
inductive WrittenTag where
  /-- The whole tag. -/
  | whole (name : List Char)
  /-- A handle and a suffix. -/
  | short (handle suffix : List Char)

/-- Reads the rest of a handle and a suffix.  `handle` is the handle so far unless it is complete;
`name` is what was read since then, the last character first. -/
def tagSuffix : Nat → Option (List Char) → List Char → Reading WrittenTag
  | 0, handle, name => return .short (handle.getD ['!']) name.reverse
  | fuel + 1, handle, name => do
    let c ← cursor
    match c.peek? with
    | none => return .short (handle.getD ['!']) name.reverse
    | some x =>
      if isSpacing x then return .short (handle.getD ['!']) name.reverse
      else if x = '!' then
        match handle with
        | some _ => fail .tagExclamation
        | none =>
          let named := '!' :: (name.reverse ++ ['!'])
          if isHandle named then
            moveTo c.advance
            tagSuffix fuel (some named) []
          else fail .namedHandle
      else
        moveTo c.advance
        tagSuffix fuel handle (x :: name)

/-- Reads a tag behind its exclamation mark. -/
def writtenTag : Reading WrittenTag := do
  let c ← cursor
  if c.sees '<' then
    let name := c.advance
    let stop := name.advance.skipWhile (· ≠ '>')
    moveTo stop
    if stop.atEnd then fail .streamInTag
    else
      moveTo stop.advance
      return .whole (name.rest.take (name.rest.length - stop.rest.length))
  else if c.sees '!' then
    moveTo c.advance
    tagSuffix (c.rest.length + 1) (some ['!', '!']) []
  else
    let tag ← tagSuffix (c.rest.length + 1) none []
    return tag

/-- The tag that a written one means. -/
def tagOf (written : WrittenTag) : Reading String := do
  let name := match written with
    | .whole name => name
    | .short _ suffix => suffix
  if let .short _ suffix := written then
    if suffix.any isFlowMark then fail .tagFlowMark
  if name ≠ [] && !isTagName name then fail (.tagCharacters (String.ofList name))
  match percentDecode name with
  | none => fail (.malformedTag (String.ofList name))
  | some name =>
    match written with
    | .whole _ => return name
    | .short handle _ =>
      let handle := String.ofList handle
      match (← get).handles.lookup handle with
      | some start => return start ++ name
      | none =>
        if handle = "!" then return "!" ++ name
        else if handle = "!!" then return standardPrefix ++ name
        else fail (.undeclaredHandle handle)

/-- Reads a tag, if one begins here; `tag` is the tag that the node has already. -/
def tagProperty (tag : Option String) : Reading (Option String) := do
  let c ← cursor
  if c.sees '!' then
    if tag.isSome then fail .repeatedTag
    else
      moveTo c.advance
      return some (← tagOf (← writtenTag))
  else return none

/-- Whether a character may stand in the name of an anchor. -/
def isAnchorChar (c : Char) : Bool := !isSpacing c && !isFlowMark c

/-- Reads a name behind a mark, if the mark is next. -/
def markedName (mark : Char) (nameless : Fault) : Reading (Option String) := do
  let c ← cursor
  if c.sees mark then
    let start := c.advance
    let name := start.ahead isAnchorChar
    moveTo (start.skipWhile isAnchorChar)
    if name = [] then fail nameless else return some (String.ofList name)
  else return none

/-- Reads an anchor, if one begins here; `anchor` is the one that the node has already. -/
def anchorProperty (anchor : Option String) : Reading (Option String) := do
  let c ← cursor
  if c.sees '&' && anchor.isSome then fail .repeatedAnchor
  else markedName '&' .namelessAnchor

/-- Reads an alias and the separation behind it, if one begins here. -/
def aliasNode : Reading (Option Value) := do
  match ← markedName '*' .namelessAlias with
  | none => return none
  | some name =>
    match ← named? name with
    | none => fail (.unknownAlias name)
    | some value =>
      skipSeparation
      return some value

end GoldenRun.Yaml
