import GoldenRun.Number.Numeral
import GoldenRun.Yaml.Reading

/-!
# Scalars

The texts of a document, in five styles.  A plain scalar runs up to a colon, a comment or the end
of its indentation; a quoted one up to its quote.  Both fold line breaks: a single one is a blank,
and of several the first is dropped.  A block scalar takes the lines that are indented more than
its parent, kept as they are or folded.
-/

namespace GoldenRun.Yaml

open GoldenRun.Text GoldenRun.Number Reading

/-- What folding makes of some line breaks. -/
def folded (breaks : Nat) : List Char :=
  if breaks = 1 then [' '] else List.replicate (breaks - 1) '\n'

/-- Whether a character may not stand in a plain or a block scalar. -/
def isNotPrintable (c : Char) : Bool :=
  let n := c.toNat
  n ≤ 0x08 || n = 0x0B || n = 0x0C || (0x0E ≤ n && n ≤ 0x1F) || (0x7F ≤ n && n ≤ 0x84) ||
    (0x86 ≤ n && n ≤ 0x9F) || n = 0xFFFE || n = 0xFFFF

/-- Whether a character may not stand between quotes. -/
def isControl (c : Char) : Bool := c.toNat < 0x20 && c != '\t'

/-- Fails at a cursor if a piece of a plain or block scalar is not printable. -/
def checkPrintable (c : Cursor) (piece : List Char) : Reading Unit :=
  if piece.any isNotPrintable then failAt c .notPrintable else pure ()

/-- Fails at a cursor if a piece between quotes holds a control character. -/
def checkQuoted (c : Cursor) (piece : List Char) : Reading Unit :=
  if piece.any isControl then failAt c .control else pure ()

/-! ## Plain scalars -/

/-- Whether a plain scalar cannot begin here. -/
def Cursor.refusesPlain (inFlow : Bool) (c : Cursor) : Bool :=
  match c.peek? with
  | none => true
  | some x =>
    isSpacing x || isFlowMark x || "#&*!|>'\"%@\x60".toList.contains x ||
      ((x = '?' || x = '-') && c.second?.any fun y => isSpacing y || (inFlow && isFlowMark y))

/-- Whether a plain scalar that runs up to here ends here. -/
def Cursor.endsPlain (inFlow : Bool) (c : Cursor) : Bool :=
  match c.peek? with
  | none => true
  | some ':' => c.second?.any fun y => isSpacing y || (inFlow && isFlowMark y)
  | some '#' => c.previous.any isSpacing
  | some x => c.atDocumentMark || (inFlow && isFlowMark x)

/-- One line of a plain scalar. -/
structure PlainLine where
  /-- Its characters, the last one first, without the white space at its end. -/
  reversed : List Char
  /-- Behind the last of them. -/
  last : Cursor
  /-- Where the line was left. -/
  stop : Cursor

/-- Reads a plain scalar up to the end of the line. -/
def plainLine (inFlow : Bool) : Nat → List Char → PlainLine → PlainLine
  | 0, _, l => l
  | fuel + 1, white, l =>
    let c := l.stop
    match c.peek? with
    | none => l
    | some x =>
      if c.endsPlain inFlow || isBreak x then l
      else if isWhite x then plainLine inFlow fuel (x :: white) { l with stop := c.advance }
      else plainLine inFlow fuel [] ⟨x :: (white ++ l.reversed), c.advance, c.advance⟩

/-- Reads the lines of a plain scalar; `text` holds the lines before. -/
def plainLines (inFlow : Bool) (indent : Int) : Nat → List Char → Reading (List Char)
  | 0, text => return text
  | fuel + 1, text => do
    let c ← cursor
    let line := plainLine inFlow (c.rest.length + 1) [] ⟨[], c, c⟩
    let piece := line.reversed.reverse
    if line.stop.atBreak then
      let (_, next) := line.stop.separation false
      if indent ≤ next.indent then
        if next.endsPlain inFlow then
          checkPrintable next piece
          moveTo next
          return text ++ piece
        else
          checkPrintable next piece
          moveTo next
          plainLines inFlow indent fuel (text ++ piece ++ folded (next.line - c.line))
      else
        checkPrintable line.last piece
        moveTo { line.last with tab := next.tab }
        return text ++ piece
    else
      checkPrintable line.stop piece
      moveTo line.stop
      return text ++ piece

/-- Reads a plain scalar, if one begins here. -/
def plainScalar (inFlow : Bool) (indent : Int) : Reading (Option (List Char)) := do
  let c ← cursor
  if c.refusesPlain inFlow || c.endsPlain inFlow then return none
  else return some (← plainLines inFlow indent (c.rest.length + 1) [])

/-! ## Quoted scalars -/

/-- Reads the rest of a single-quoted scalar.  `text` is what came before, `piece` and `white` the
characters since then, the last one first. -/
def singleQuoted : Nat → List Char → List Char → List Char → Reading (List Char)
  | 0, _, _, _ => fail .streamInSingle
  | fuel + 1, text, piece, white => do
    let c ← cursor
    match c.peek? with
    | none => fail .streamInSingle
    | some x =>
      if x = '\'' then
        let whole := (white ++ piece).reverse
        checkQuoted c whole
        if c.second? = some '\'' then
          moveTo c.advance.advance
          singleQuoted fuel (text ++ whole) ['\''] []
        else
          moveTo c.advance
          return text ++ whole
      else if isBreak x then
        checkQuoted c piece.reverse
        let breaks ← separation false
        singleQuoted fuel (text ++ piece.reverse ++ folded breaks) [] []
      else if c.atDocumentMark then fail .documentInSingle
      else
        moveTo c.advance
        if isWhite x then singleQuoted fuel text piece (x :: white)
        else singleQuoted fuel text (x :: (white ++ piece)) []

/-- Reads a single-quoted scalar, if one begins here. -/
def singleScalar : Reading (Option (List Char)) := do
  let c ← cursor
  if c.sees '\'' then
    moveTo c.advance
    return some (← singleQuoted (c.rest.length + 1) [] [] [])
  else return none

/-- The character that a letter behind a backslash means. -/
def simpleEscape? (c : Char) : Option Char :=
  [('0', '\x00'), ('a', '\x07'), ('b', '\x08'), ('t', '\t'), ('\t', '\t'), ('n', '\n'),
    ('v', '\x0B'), ('f', '\x0C'), ('r', '\r'), ('e', '\x1B'), (' ', ' '), ('"', '"'), ('/', '/'),
    ('\\', '\\'), ('N', '\u0085'), ('_', '\u00A0'), ('L', '\u2028'), ('P', '\u2029')].lookup c

/-- How many digits follow a letter behind a backslash. -/
def escapeDigits? (c : Char) : Option Nat := [('x', 2), ('u', 4), ('U', 8)].lookup c

/-- The units of an escaped number.  It is taken as a signed number of 32 bits; up to U+FFFF it is
one unit, and above it is split as a pair of surrogates. -/
def escapedUnits (n : Nat) : List Nat :=
  let n := n % 0x100000000
  if n ≤ 0xFFFF ∨ 0x80000000 ≤ n then [n % 0x10000]
  else [((n - 0x10000) / 0x400 + 0xD800) % 0x10000, (n - 0x10000) % 0x400 + 0xDC00]

/-- Reads the digits of an escape. -/
def escapeNumber : Nat → Nat → Reading Nat
  | 0, n => return n
  | count + 1, n => do
    let c ← cursor
    match c.peek?.bind digitValue? with
    | some d =>
      moveTo c.advance
      escapeNumber count (n * 16 + d)
    | none => fail .hexDigit

/-- Reads the rest of a double-quoted scalar, in units.  `text` is what came before, `piece` and
`white` the characters since then, the last one first. -/
def doubleQuoted : Nat → List Nat → List Char → List Char → Reading (List Nat)
  | 0, _, _, _ => fail .streamInDouble
  | fuel + 1, text, piece, white => do
    let c ← cursor
    let whole := (white ++ piece).reverse
    match c.peek? with
    | none => fail .streamInDouble
    | some x =>
      if x = '"' then
        checkQuoted c whole
        moveTo c.advance
        return text ++ whole.flatMap units
      else if x = '\\' then
        checkQuoted c whole
        let text := text ++ whole.flatMap units
        moveTo c.advance
        match c.second? with
        | none => fail .escape
        | some y =>
          if isBreak y then
            let _ ← separation false
            doubleQuoted fuel text [] []
          else match simpleEscape? y, escapeDigits? y with
            | some z, _ =>
              moveTo c.advance.advance
              doubleQuoted fuel (text ++ units z) [] []
            | none, some count =>
              moveTo c.advance.advance
              let n ← escapeNumber count 0
              doubleQuoted fuel (text ++ escapedUnits n) [] []
            | none, none => fail .escape
      else if isBreak x then
        checkQuoted c piece.reverse
        let breaks ← separation false
        doubleQuoted fuel (text ++ piece.reverse.flatMap units ++ (folded breaks).flatMap units)
          [] []
      else if c.atDocumentMark then fail .documentInDouble
      else
        moveTo c.advance
        if isWhite x then doubleQuoted fuel text piece (x :: white)
        else doubleQuoted fuel text (x :: (white ++ piece)) []

/-- Reads a double-quoted scalar, if one begins here. -/
def doubleScalar : Reading (Option (List Char)) := do
  let c ← cursor
  if c.sees '"' then
    moveTo c.advance
    return some (ofUnits (← doubleQuoted (c.rest.length + 1) [] [] []))
  else return none

/-! ## Block scalars -/

/-- What becomes of the line breaks at the end of a block scalar. -/
inductive Chomping where
  /-- One stays. -/
  | clip
  /-- None stays. -/
  | strip
  /-- All stay. -/
  | keep
  deriving DecidableEq, Repr

/-- What stands behind the mark of a block scalar. -/
structure BlockHeader where
  /-- What becomes of the line breaks at its end. -/
  chomping : Chomping := .clip
  /-- How much it is indented. -/
  width : Option Nat := none
  deriving DecidableEq, Repr

/-- Reads the header of a block scalar. -/
def blockHeader : Nat → BlockHeader → Reading BlockHeader
  | 0, h => return h
  | fuel + 1, h => do
    let c ← cursor
    match c.peek? with
    | none => return h
    | some x =>
      if x = '+' || x = '-' then
        if h.chomping ≠ .clip then fail .repeatedChomping
        else
          moveTo c.advance
          blockHeader fuel { h with chomping := if x = '+' then .keep else .strip }
      else if x.isDigit then
        let n := x.toNat - '0'.toNat
        if n = 0 then fail .zeroWidth
        else if h.width.isSome then fail .repeatedWidth
        else
          moveTo c.advance
          blockHeader fuel { h with width := some n }
      else return h

/-- How far a block scalar has come. -/
structure BlockText where
  /-- The text so far. -/
  text : List Char := []
  /-- The blanks that indent its lines, as far as is known. -/
  indent : Int
  /-- Whether the indentation is settled. -/
  settled : Bool
  /-- The empty lines since the last line with text. -/
  empty : Nat := 0
  /-- Whether there was a line with text. -/
  begun : Bool := false
  /-- Whether the last line with text was indented more than the others. -/
  more : Bool := false

/-- Before the lines of a block scalar are read; they are indented by at least `indent`. -/
def BlockHeader.start (h : BlockHeader) (indent : Int) : BlockText :=
  match h.width with
  | some n => { indent := indent + n - 1, settled := true }
  | none => { indent, settled := false }

/-- The line breaks that stand between the text so far and a new line with text. -/
def BlockText.gap (b : BlockText) (fold : Bool) (first : Char) : List Char :=
  let kept := List.replicate (if b.begun then 1 + b.empty else b.empty) '\n'
  if !fold || isWhite first then kept
  else if b.more then List.replicate (b.empty + 1) '\n'
  else if b.empty = 0 then (if b.begun then [' '] else [])
  else List.replicate b.empty '\n'

/-- The line breaks at the end of a block scalar. -/
def BlockText.ending (b : BlockText) : Chomping → List Char
  | .keep => List.replicate (if b.begun then 1 + b.empty else b.empty) '\n'
  | .clip => if b.begun then ['\n'] else []
  | .strip => []

/-- How many of the blanks at the beginning of a line indent it. -/
def BlockText.taken (b : BlockText) (blanks : Nat) : Nat :=
  if b.settled then min blanks b.indent.toNat else blanks

/-- As long as the indentation is not settled, a line moves it. -/
def BlockText.deepen (b : BlockText) (taken : Nat) : BlockText :=
  if !b.settled && b.indent < taken then { b with indent := taken } else b

/-- The text with one line of text more. -/
def BlockText.grow (b : BlockText) (fold : Bool) (piece : List Char) : BlockText :=
  let first := piece.head?.getD '\n'
  { b with
    text := b.text ++ b.gap fold first ++ piece
    settled := true
    empty := 0
    begun := true
    more := fold && isWhite first }

/-- Behind the blanks that indent the next line. -/
def Cursor.intoLine (n : Nat) (c : Cursor) : Cursor := { c.nextLine.advanceBy n with indent := n }

/-- Reads the lines of a block scalar. -/
def blockLines (fold : Bool) (chomping : Chomping) : Nat → BlockText → Reading (List Char)
  | 0, b => return b.text
  | fuel + 1, b => do
    let c ← cursor
    if c.atEnd then return b.text
    else if !c.atBreak then fail .lineBreak
    else
      let taken := b.taken (c.nextLine.ahead (· = ' ')).length
      let here := c.intoLine taken
      let b := b.deepen taken
      moveTo here
      if here.atBreak then blockLines fold chomping fuel { b with empty := b.empty + 1 }
      else if !b.settled && b.indent = 0 then fail .noIndentation
      else if (taken : Int) < b.indent then return b.text ++ b.ending chomping
      else
        let piece := here.ahead fun x => !isBreak x
        checkPrintable here.skipToBreak piece
        moveTo here.skipToBreak
        blockLines fold chomping fuel (b.grow fold piece)

/-- Reads a block scalar, if one begins here; its lines are indented by at least `indent`. -/
def blockScalar (indent : Int) : Reading (Option (List Char)) := do
  let c ← cursor
  if c.sees '|' || c.sees '>' then
    moveTo c.advance
    let header ← blockHeader (c.rest.length + 1) {}
    let d ← cursor
    if d.peek?.any isWhite then
      let d := d.skipWhile isWhite
      moveTo (if d.sees '#' then d.skipToBreak else d)
    return some (← blockLines (c.sees '>') header.chomping (c.rest.length + 1)
      (header.start indent))
  else return none

end GoldenRun.Yaml
