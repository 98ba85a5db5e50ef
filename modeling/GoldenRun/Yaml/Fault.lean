import GoldenRun.Failure.Report

/-!
# What can be wrong with a document

Every fault is a cause of its own; `Fault.reason` words it.  An `Error` adds the place of the fault
and shows the lines around it.
-/

namespace GoldenRun.Yaml

/-- What is wrong with a document. -/
inductive Fault where
  /-- It holds the character NUL. -/
  | nul
  /-- It is followed by another one. -/
  | moreDocuments
  /-- A directive has no name. -/
  | namelessDirective
  /-- The version is declared twice. -/
  | repeatedVersion
  /-- A version declaration does not have one argument. -/
  | versionArguments
  /-- The version is not a number with one point. -/
  | illFormedVersion
  /-- The major version is not 1. -/
  | unknownVersion
  /-- A tag declaration does not have two arguments. -/
  | handleArguments
  /-- A declared tag handle is ill-formed. -/
  | illFormedHandle
  /-- A tag handle is declared twice. -/
  | repeatedHandle (handle : String)
  /-- The prefix of a declared tag handle is ill-formed. -/
  | illFormedPrefix
  /-- The prefix of a declared tag handle is no encoded text. -/
  | malformedPrefix (text : String)
  /-- There are directives, but no mark behind them. -/
  | directivesEnd
  /-- Something stands behind the document. -/
  | documentEnd
  /-- A line break is missing. -/
  | lineBreak
  /-- A control character stands between quotes. -/
  | control
  /-- A character is not printable. -/
  | notPrintable
  /-- What is merged is no mapping. -/
  | mergeSource
  /-- Too many mappings are merged at once. -/
  | mergeLength
  /-- Merges cost too much. -/
  | mergeCost (limit : Nat)
  /-- A key holds a list in a list. -/
  | nestedKey
  /-- A key stands twice in a mapping. -/
  | duplicateKey
  /-- A document ends between single quotes. -/
  | documentInSingle
  /-- The text ends between single quotes. -/
  | streamInSingle
  /-- A document ends between double quotes. -/
  | documentInDouble
  /-- The text ends between double quotes. -/
  | streamInDouble
  /-- A digit of an escape is missing. -/
  | hexDigit
  /-- An escape is unknown. -/
  | escape
  /-- A comma is missing in a flow collection. -/
  | comma
  /-- There is nothing before a comma of a flow collection. -/
  | emptyEntry
  /-- The text ends in a flow collection. -/
  | streamInFlow
  /-- A block scalar says twice how it ends. -/
  | repeatedChomping
  /-- A block scalar is to be indented by nothing. -/
  | zeroWidth
  /-- A block scalar says twice how it is indented. -/
  | repeatedWidth
  /-- A block scalar is not indented. -/
  | noIndentation
  /-- A tab indents a line. -/
  | tab
  /-- An entry of a sequence is badly indented. -/
  | sequenceIndentation
  /-- An entry of a mapping is badly indented. -/
  | mappingIndentation
  /-- A value stands without its key. -/
  | keyMissed
  /-- Nothing parts a value from the colon before it. -/
  | colonSpacing
  /-- A colon is missing behind a key. -/
  | colonMissed
  /-- A key stretches over several lines. -/
  | multilineKey
  /-- A node has two tags. -/
  | repeatedTag
  /-- The text ends in a tag. -/
  | streamInTag
  /-- A tag handle is ill-formed. -/
  | namedHandle
  /-- A tag suffix holds an exclamation mark. -/
  | tagExclamation
  /-- A tag suffix holds a mark of flow collections. -/
  | tagFlowMark
  /-- A tag holds characters that it cannot. -/
  | tagCharacters (name : String)
  /-- A tag is no encoded text. -/
  | malformedTag (name : String)
  /-- A tag handle is not declared. -/
  | undeclaredHandle (handle : String)
  /-- A node has two anchors. -/
  | repeatedAnchor
  /-- An anchor has no name. -/
  | namelessAnchor
  /-- An alias has no name. -/
  | namelessAlias
  /-- An alias names no anchor. -/
  | unknownAlias (name : String)
  /-- An alias has a tag or an anchor. -/
  | aliasProperties
  /-- A tag does not go with the kind of its node. -/
  | wrongKind (tag expected actual : String)
  /-- A tag is unknown. -/
  | unknownTag (tag : String)
  /-- A node is not of the form that its tag demands. -/
  | unresolved (tag : String)
  /-- A tag asks something of a value that only a text can answer. -/
  | notText (question : String)
  /-- The nodes are nested too deeply. -/
  | tooDeep (limit : Nat)
  deriving DecidableEq, Repr

/-- The words for a fault. -/
def Fault.reason : Fault → String
  | .nul => "null byte is not allowed in input"
  | .moreDocuments => "expected a single document in the stream, but found more"
  | .namelessDirective => "directive name must not be less than one character in length"
  | .repeatedVersion => "duplication of %YAML directive"
  | .versionArguments => "YAML directive accepts exactly one argument"
  | .illFormedVersion => "ill-formed argument of the YAML directive"
  | .unknownVersion => "unacceptable YAML version of the document"
  | .handleArguments => "TAG directive accepts exactly two arguments"
  | .illFormedHandle => "ill-formed tag handle (first argument) of the TAG directive"
  | .repeatedHandle handle =>
    "there is a previously declared suffix for \"" ++ handle ++ "\" tag handle"
  | .illFormedPrefix => "ill-formed tag prefix (second argument) of the TAG directive"
  | .malformedPrefix text => "tag prefix is malformed: " ++ text
  | .directivesEnd => "directives end mark is expected"
  | .documentEnd => "end of the stream or a document separator is expected"
  | .lineBreak => "a line break is expected"
  | .control => "expected valid JSON character"
  | .notPrintable => "the stream contains non-printable characters"
  | .mergeSource => "cannot merge mappings; the provided source object is unacceptable"
  | .mergeLength => "abnormal merge sequence size"
  | .mergeCost limit => "merge keys exceeded maxTotalMergeKeys (" ++ toString limit ++ ")"
  | .nestedKey => "nested arrays are not supported inside keys"
  | .duplicateKey => "duplicated mapping key"
  | .documentInSingle => "unexpected end of the document within a single quoted scalar"
  | .streamInSingle => "unexpected end of the stream within a single quoted scalar"
  | .documentInDouble => "unexpected end of the document within a double quoted scalar"
  | .streamInDouble => "unexpected end of the stream within a double quoted scalar"
  | .hexDigit => "expected hexadecimal character"
  | .escape => "unknown escape sequence"
  | .comma => "missed comma between flow collection entries"
  | .emptyEntry => "expected the node content, but found ','"
  | .streamInFlow => "unexpected end of the stream within a flow collection"
  | .repeatedChomping => "repeat of a chomping mode identifier"
  | .zeroWidth =>
    "bad explicit indentation width of a block scalar; it cannot be less than one"
  | .repeatedWidth => "repeat of an indentation width identifier"
  | .noIndentation => "missing indentation for block scalar"
  | .tab => "tab characters must not be used in indentation"
  | .sequenceIndentation => "bad indentation of a sequence entry"
  | .mappingIndentation => "bad indentation of a mapping entry"
  | .keyMissed =>
    "incomplete explicit mapping pair; a key node is missed; " ++
      "or followed by a non-tabulated empty line"
  | .colonSpacing =>
    "a whitespace character is expected after the key-value separator within a block mapping"
  | .colonMissed => "can not read an implicit mapping pair; a colon is missed"
  | .multilineKey =>
    "can not read a block mapping entry; a multiline key may not be an implicit key"
  | .repeatedTag => "duplication of a tag property"
  | .streamInTag => "unexpected end of the stream within a verbatim tag"
  | .namedHandle => "named tag handle cannot contain such characters"
  | .tagExclamation => "tag suffix cannot contain exclamation marks"
  | .tagFlowMark => "tag suffix cannot contain flow indicator characters"
  | .tagCharacters name => "tag name cannot contain such characters: " ++ name
  | .malformedTag name => "tag name is malformed: " ++ name
  | .undeclaredHandle handle => "undeclared tag handle \"" ++ handle ++ "\""
  | .repeatedAnchor => "duplication of an anchor property"
  | .namelessAnchor => "name of an anchor node must contain at least one character"
  | .namelessAlias => "name of an alias node must contain at least one character"
  | .unknownAlias name => "unidentified alias \"" ++ name ++ "\""
  | .aliasProperties => "alias node should not have any properties"
  | .wrongKind tag expected actual =>
    "unacceptable node kind for !<" ++ tag ++ "> tag; it should be \"" ++ expected ++
      "\", not \"" ++ actual ++ "\""
  | .unknownTag tag => "unknown tag !<" ++ tag ++ ">"
  | .unresolved tag => "cannot resolve a node with !<" ++ tag ++ "> explicit tag"
  | .notText question => "data." ++ question ++ " is not a function"
  | .tooDeep limit => "nesting exceeded maxDepth (" ++ toString limit ++ ")"

/-- Whether a fault is one of the document, and not of the use that is made of a value in it. -/
def Fault.isOfDocument : Fault → Bool
  | .notText _ => false
  | _ => true

/-- A fault and its place. -/
structure Error where
  /-- The fault. -/
  fault : Fault
  /-- Its place, unless it is a fault of the whole text or none of the document. -/
  mark : Option Report.Mark
  deriving DecidableEq, Repr

/-- The message of an error. -/
def Error.message (e : Error) : String :=
  match e.mark with
  | none => e.fault.reason
  | some mark =>
    let file := match mark.name with
      | some name => if name = "" then "" else "in \"" ++ name ++ "\" "
      | none => ""
    let place := "(" ++ toString (mark.line.getD 0 + 1) ++ ":" ++
      toString (mark.column.getD 0 + 1) ++ ")"
    let shown := match mark.snippet with
      | some s => if s = "" then "" else "\n\n" ++ s
      | none => ""
    e.fault.reason ++ " " ++ file ++ place ++ shown

end GoldenRun.Yaml
