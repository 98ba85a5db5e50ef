/-!
# Tokens of a template

A template is plain text with tags in double braces.  Its tokens are the pieces of plain text, the
comments, and inside a tag the openers and closers, names, literals and marks.
-/

namespace GoldenRun.Template

/-- The kinds of token, in the order in which a diagnosis lists them. -/
inductive TokenKind where
  /-- The end of the template. -/
  | eof
  /-- A comment. -/
  | comment
  /-- Plain text. -/
  | content
  /-- The closing tag of a raw block. -/
  | endRawBlock
  /-- The opener of a raw block. -/
  | openRawBlock
  /-- The closer of a raw block's tag. -/
  | closeRawBlock
  /-- The opener of a block. -/
  | openBlock
  /-- The closer of a tag. -/
  | close
  /-- The opener of an inverted block. -/
  | openInverse
  /-- The opener of a further branch with a condition. -/
  | openInverseChain
  /-- The whole tag of the last branch. -/
  | inverse
  /-- The opener of a block's end. -/
  | openEndBlock
  /-- The opener of a tag. -/
  | opener
  /-- The opener of an unescaped tag. -/
  | openUnescaped
  /-- The closer of an unescaped tag. -/
  | closeUnescaped
  /-- The opener of a partial. -/
  | openPartial
  /-- The opener of a partial with a body. -/
  | openPartialBlock
  /-- An opening parenthesis. -/
  | openSexpr
  /-- A closing parenthesis. -/
  | closeSexpr
  /-- A name. -/
  | id
  /-- An equals sign. -/
  | equals
  /-- The opening bar of block parameters. -/
  | openBlockParams
  /-- The closing bar of block parameters. -/
  | closeBlockParams
  /-- A string. -/
  | string
  /-- A number. -/
  | number
  /-- A truth value. -/
  | boolean
  /-- The word for no value. -/
  | undefined
  /-- The word for the empty value. -/
  | null
  /-- The mark of a data name. -/
  | data
  /-- A separator inside a path. -/
  | sep
  /-- A character that begins no token. -/
  | invalid
  /-- The end of the template inside a raw block. -/
  | endOfInput
  deriving DecidableEq, Repr, Inhabited

namespace TokenKind

/-- The word for a kind in a diagnosis. -/
def word : TokenKind → String
  | eof => "EOF"
  | comment => "COMMENT"
  | content => "CONTENT"
  | endRawBlock => "END_RAW_BLOCK"
  | openRawBlock => "OPEN_RAW_BLOCK"
  | closeRawBlock => "CLOSE_RAW_BLOCK"
  | openBlock => "OPEN_BLOCK"
  | close => "CLOSE"
  | openInverse => "OPEN_INVERSE"
  | openInverseChain => "OPEN_INVERSE_CHAIN"
  | inverse => "INVERSE"
  | openEndBlock => "OPEN_ENDBLOCK"
  | opener => "OPEN"
  | openUnescaped => "OPEN_UNESCAPED"
  | closeUnescaped => "CLOSE_UNESCAPED"
  | openPartial => "OPEN_PARTIAL"
  | openPartialBlock => "OPEN_PARTIAL_BLOCK"
  | openSexpr => "OPEN_SEXPR"
  | closeSexpr => "CLOSE_SEXPR"
  | id => "ID"
  | equals => "EQUALS"
  | openBlockParams => "OPEN_BLOCK_PARAMS"
  | closeBlockParams => "CLOSE_BLOCK_PARAMS"
  | string => "STRING"
  | number => "NUMBER"
  | boolean => "BOOLEAN"
  | undefined => "UNDEFINED"
  | null => "NULL"
  | data => "DATA"
  | sep => "SEP"
  | invalid => "INVALID"
  | endOfInput => "1"

/-- The kinds that a diagnosis can list, in its order. -/
def listed : List TokenKind :=
  [eof, comment, content, endRawBlock, openRawBlock, closeRawBlock, openBlock, close, openInverse,
    openInverseChain, inverse, openEndBlock, opener, openUnescaped, closeUnescaped, openPartial,
    openPartialBlock, openSexpr, closeSexpr, id, equals, openBlockParams, closeBlockParams, string,
    number, boolean, undefined, null, data, sep]

end TokenKind

/-- A place in a template: the line from 1, the column from 0. -/
structure Place where
  /-- The line. -/
  line : Nat
  /-- The column. -/
  column : Nat
  deriving DecidableEq, Repr, Inhabited

/-- The text before and behind the point that a reader has reached, as a diagnosis shows it. -/
structure Surrounding where
  /-- The end of the text before the point. -/
  before : String
  /-- The beginning of the text behind it. -/
  behind : String
  deriving DecidableEq, Repr, Inhabited

/-- A token. -/
structure Token where
  /-- Its kind. -/
  kind : TokenKind
  /-- Its text, without quotes where it has some. -/
  text : String
  /-- Where it begins. -/
  place : Place
  /-- The number of line ends up to its end. -/
  lineEnds : Nat
  /-- The text around its beginning. -/
  surrounding : Surrounding
  deriving DecidableEq, Repr, Inhabited

end GoldenRun.Template
