import GoldenRun.Text.Units

/-!
# A place in a document

A `Cursor` stands between two characters of a document.  It knows what is ahead, how far it has
come in sixteen-bit units, where its line begins and by how many blanks that line is indented.  A
line ends with a line feed, a carriage return or both.

Between tokens stands `separation`: blanks, tabs, line breaks and, where they are allowed,
comments.  Tabs do not indent, so a cursor remembers the first tab of the separation on its line.
-/

namespace GoldenRun.Yaml

open GoldenRun.Text

/-- Whether a character ends a line. -/
def isBreak (c : Char) : Bool := c = '\n' || c = '\r'

/-- Whether a character is a blank or a tab. -/
def isWhite (c : Char) : Bool := c = ' ' || c = '\t'

/-- Whether a character separates tokens. -/
def isSpacing (c : Char) : Bool := isWhite c || isBreak c

/-- Whether a character structures a flow collection. -/
def isFlowMark (c : Char) : Bool := c = ',' || c = '[' || c = ']' || c = '{' || c = '}'

/-- A place in a document. -/
structure Cursor where
  /-- What is ahead. -/
  rest : List Char
  /-- The character just behind. -/
  previous : Option Char := none
  /-- The units behind. -/
  offset : Nat := 0
  /-- The number of the line, from 0. -/
  line : Nat := 0
  /-- The offset of the beginning of the line. -/
  lineStart : Nat := 0
  /-- The blanks at the beginning of the line. -/
  indent : Nat := 0
  /-- The offset of the first tab in the separation on this line. -/
  tab : Option Nat := none
  deriving Repr, Inhabited

namespace Cursor

/-- The next character. -/
def peek? (c : Cursor) : Option Char := c.rest.head?

/-- The character behind the next one. -/
def second? (c : Cursor) : Option Char := c.rest[1]?

/-- Whether the next character is the given one. -/
def sees (c : Cursor) (x : Char) : Bool := c.rest.head? = some x

/-- Whether nothing is ahead. -/
def atEnd (c : Cursor) : Bool := c.rest.isEmpty

/-- Whether a line break is next. -/
def atBreak (c : Cursor) : Bool := c.rest.head?.any isBreak

/-- How far the cursor is from the beginning of its line. -/
def column (c : Cursor) : Int := (c.offset : Int) - c.lineStart

/-- Behind the next character. -/
def advance (c : Cursor) : Cursor :=
  match c.rest with
  | [] => c
  | x :: rest => { c with rest, previous := some x, offset := c.offset + width [x] }

/-- Behind the next `n` characters. -/
def advanceBy : Nat → Cursor → Cursor
  | 0, c => c
  | n + 1, c => advanceBy n c.advance

/-- Behind all the next characters of a kind. -/
def skipWhile (p : Char → Bool) (c : Cursor) : Cursor :=
  advanceBy (c.rest.takeWhile p).length c

/-- The next characters of a kind. -/
def ahead (p : Char → Bool) (c : Cursor) : List Char := c.rest.takeWhile p

/-- Behind the line break that is next. -/
def nextLine (c : Cursor) : Cursor :=
  let d := if c.sees '\r' && c.second? = some '\n' then c.advance.advance else c.advance
  { d with line := c.line + 1, lineStart := d.offset, tab := none }

/-- Behind the blanks that indent a line. -/
def skipIndent (c : Cursor) : Cursor :=
  { c.skipWhile (· = ' ') with indent := (c.ahead (· = ' ')).length }

/-- Behind blanks and tabs. -/
def skipWhite (c : Cursor) : Cursor :=
  let d := c.skipWhile isWhite
  match c.tab, (c.ahead isWhite).findIdx? (· = '\t') with
  | none, some i => { d with tab := some (c.offset + i) }
  | _, _ => d

/-- At the end of the line. -/
def skipToBreak (c : Cursor) : Cursor := c.skipWhile fun x => !isBreak x

/-- Behind the separation that is next, with the number of line breaks in it. -/
def separation (comments : Bool) (c : Cursor) : Nat × Cursor := go (c.rest.length + 1) 0 c
where
  /-- Goes on for at most `fuel` lines. -/
  go : Nat → Nat → Cursor → Nat × Cursor
    | 0, n, c => (n, c)
    | fuel + 1, n, c =>
      let c := c.skipWhite
      let c := if comments && c.sees '#' then c.skipToBreak else c
      if c.atBreak then go fuel (n + 1) c.nextLine.skipIndent else (n, c)

/-- Whether a mark that parts documents begins here: three hyphens or three points at the
beginning of a line, with nothing but spacing behind them. -/
def atDocumentMark (c : Cursor) : Bool :=
  c.offset = c.lineStart &&
    match c.rest with
    | x :: y :: z :: rest =>
      (x = '-' || x = '.') && y = x && z = x && rest.head?.all isSpacing
    | _ => false

end Cursor

end GoldenRun.Yaml
