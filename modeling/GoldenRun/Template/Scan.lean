import GoldenRun.Template.Fault
import GoldenRun.Text.Blank

/-!
# Reading the tokens of a template

The reader is always in one of five modes: in plain text, in text whose braces are escaped, in a
tag, in a long comment, or in a raw block.  In each mode the first rule that applies takes a piece
of the text, yields at most one token and says which mode comes next.

A long comment is found in a tag: its opener is given back and read again as part of the comment.
Of the text already read, which diagnoses show, all of that opener but its last character stays.
-/

namespace GoldenRun.Template

open GoldenRun.Text

/-- What the reader is in. -/
inductive Mode where
  /-- Plain text. -/
  | text
  /-- Plain text that begins with escaped braces. -/
  | escaped
  /-- A tag. -/
  | tag
  /-- A long comment. -/
  | comment
  /-- A raw block, inside a number of others. -/
  | raw (outer : Nat)
  deriving DecidableEq, Repr

/-- What a rule takes from the text. -/
structure Piece where
  /-- The text taken. -/
  taken : List Char
  /-- The token it is, with the token's text. -/
  token : Option (TokenKind × List Char)
  /-- The mode that comes next. -/
  next : Mode
  /-- Whether the text is given back. -/
  givenBack : Bool := false
  deriving Repr

/-! ## Pieces of text -/

/-- Whether a text begins with another. -/
def begins (start : String) (s : List Char) : Bool := start.toList.isPrefixOf s

/-- The shortest beginning of at least `least` characters, none of them NUL, behind which the text
satisfies `stop`. -/
def shortest (stop : List Char → Bool) : (least : Nat) → List Char → Option (List Char)
  | 0, [] => if stop [] then some [] else none
  | _ + 1, [] => none
  | 0, c :: rest =>
    if stop (c :: rest) then some []
    else if c = '\x00' then none
    else (shortest stop 0 rest).map (c :: ·)
  | n + 1, c :: rest => if c = '\x00' then none else (shortest stop n rest).map (c :: ·)

/-- Whether a character may stand in a plain name. -/
def isNameChar (c : Char) : Bool :=
  let n := c.toNat
  !(isBlank c || c = '!' || c = '"' || c = '#' || (0x25 ≤ n && n ≤ 0x2C) || c = '.' || c = '/' ||
    (0x3B ≤ n && n ≤ 0x3E) || c = '@' || (0x5B ≤ n && n ≤ 0x5E) || c = '\x60' ||
    (0x7B ≤ n && n ≤ 0x7E))

/-- Whether a name may end here. -/
def nameEnds : List Char → Bool
  | [] => false
  | c :: _ => isBlank c || "=~\x7d/.)|".toList.contains c

/-- Whether a literal may end here. -/
def literalEnds : List Char → Bool
  | [] => false
  | c :: _ => isBlank c || "~\x7d)".toList.contains c

/-- Whether a word ends here. -/
def wordEnds : List Char → Bool
  | [] => true
  | c :: _ => !(c.isAlphanum || c = '_')

/-- The rest of a quoted text up to its closing character, which stands for itself behind a
backslash if another one follows. -/
def quotedEnd (quote : Char) : List Char → Option (List Char)
  | [] => none
  | '\\' :: c :: rest =>
    if c = quote then
      match quotedEnd quote rest with
      | some body => some ('\\' :: c :: body)
      | none => some ['\\', c]
    else (quotedEnd quote (c :: rest)).map ('\\' :: ·)
  | c :: rest => if c = quote then some [c] else (quotedEnd quote rest).map (c :: ·)

/-- A text with every backslash taken away that stands before one of the given characters. -/
def unescape (chars : List Char) : List Char → List Char
  | '\\' :: c :: rest =>
    if chars.contains c then c :: unescape chars rest else '\\' :: unescape chars (c :: rest)
  | c :: rest => c :: unescape chars rest
  | [] => []

/-- The digits of a number at the beginning of a text. -/
def numberText (s : List Char) : Option (List Char) :=
  let (sign, body) := match s with
    | '-' :: rest => (['-'], rest)
    | rest => ([], rest)
  let whole := body.takeWhile Char.isDigit
  let rest := body.dropWhile Char.isDigit
  if whole = [] then none
  else
    let fraction := match rest with
      | '.' :: r => if r.takeWhile Char.isDigit = [] then [] else '.' :: r.takeWhile Char.isDigit
      | _ => []
    if literalEnds (rest.drop fraction.length) then some (sign ++ whole ++ fraction)
    else if literalEnds rest then some (sign ++ whole)
    else none

/-! ## The rules of each mode -/

/-- The rule for plain text: up to the next two braces, which a backslash escapes and two do
not. -/
def textPiece (s : List Char) : Option Piece :=
  match shortest (begins "\x7b\x7b") 0 s with
  | some before =>
    let (shown, next) : List Char × Mode :=
      match before.reverse with
      | '\\' :: '\\' :: r => (('\\' :: r).reverse, .tag)
      | '\\' :: r => (r.reverse, .escaped)
      | _ => (before, .tag)
    some ⟨before, if shown = [] then none else some (.content, shown), next, false⟩
  | none =>
    let all := s.takeWhile (· ≠ '\x00')
    if s = [] then some ⟨[], some (.eof, []), .text, false⟩
    else if all = [] then none
    else some ⟨all, some (.content, all), .text, false⟩

/-- The rule for escaped braces: they and what follows up to the next braces. -/
def escapedPiece (s : List Char) : Option Piece :=
  let stop (r : List Char) : Bool :=
    r.isEmpty || begins "\x7b\x7b" r || begins "\\\x7b\x7b" r || begins "\\\\\x7b\x7b" r
  (shortest stop 2 s).map fun t => ⟨t, some (.content, t), .text, false⟩

/-- The characters of a long comment's end at the beginning of a text. -/
def commentEnd (s : List Char) : Option (List Char) :=
  if begins "--\x7d\x7d" s then some "--\x7d\x7d".toList
  else if begins "--~\x7d\x7d" s then some "--~\x7d\x7d".toList
  else none

/-- A long comment with its end. -/
def commentText : List Char → Option (List Char)
  | [] => none
  | c :: rest =>
    match commentEnd (c :: rest) with
    | some t => some t
    | none => (commentText rest).map (c :: ·)

/-- The rule for a long comment. -/
def commentPiece (s : List Char) : Option Piece :=
  (commentText s).map fun t => ⟨t, some (.comment, t), .text, false⟩

/-- The closing tag of a raw block at the beginning of a text, with the name in it. -/
def rawEnd (s : List Char) : Option (List Char × List Char) :=
  if begins "\x7b\x7b\x7b\x7b/" s then
    let name := (s.drop 5).takeWhile isNameChar
    let rest := (s.drop 5).dropWhile isNameChar
    if name ≠ [] ∧ begins "\x7d\x7d\x7d\x7d" rest then
      some ("\x7b\x7b\x7b\x7b/".toList ++ name ++ "\x7d\x7d\x7d\x7d".toList, name)
    else none
  else none

/-- The rules for a raw block. -/
def rawPiece (outer : Nat) (s : List Char) : Option Piece :=
  let nested := begins "\x7b\x7b\x7b\x7b" s &&
    match s.drop 4 with
    | c :: _ => c != '/'
    | [] => false
  if s = [] then some ⟨[], some (.endOfInput, []), .raw outer, false⟩
  else if nested then
    let t := s.take 4
    some ⟨t, some (.content, t), .raw (outer + 1), false⟩
  else
    match rawEnd s with
    | some (t, name) =>
      match outer with
      | 0 => some ⟨t, some (.endRawBlock, name), .text, false⟩
      | k + 1 => some ⟨t, some (.content, t), .raw k, false⟩
    | none =>
      (shortest (begins "\x7b\x7b\x7b\x7b") 1 s).map fun t =>
        ⟨t, some (.content, t), .raw outer, false⟩

/-- A fixed text as a token. -/
def fixed (start : String) (kind : TokenKind) (next : Mode) (s : List Char) : Option Piece :=
  if begins start s then some ⟨start.toList, some (kind, start.toList), next, false⟩ else none

/-- Two braces with an optional tilde, and the text behind them. -/
def tagStart (s : List Char) : Option (List Char × List Char) :=
  if begins "\x7b\x7b~" s then some (s.take 3, s.drop 3)
  else if begins "\x7b\x7b" s then some (s.take 2, s.drop 2)
  else none

/-- An optional tilde and two braces. -/
def tagEnd (s : List Char) : Option (List Char) :=
  if begins "~\x7d\x7d" s then some (s.take 3)
  else if begins "\x7d\x7d" s then some (s.take 2)
  else none

/-- A tag that marks the last branch, given by the characters that must stand in it. -/
def inverseTag (blanksBefore : Bool) (mark : String) (start rest : List Char) : Option Piece :=
  let lead := if blanksBefore then rest.takeWhile isBlank else []
  let body := rest.drop lead.length
  if begins mark body then
    let inner := body.drop mark.length
    let blanks := inner.takeWhile isBlank
    (tagEnd (inner.dropWhile isBlank)).map fun e =>
      let t := start ++ lead ++ mark.toList ++ blanks ++ e
      ⟨t, some (.inverse, t), .text, false⟩
  else none

/-- A short comment up to its closing braces. -/
def shortComment (s : List Char) : Option (List Char) :=
  match s with
  | [] => none
  | c :: rest =>
    if begins "\x7d\x7d" (c :: rest) then some "\x7d\x7d".toList
    else (shortComment rest).map (c :: ·)

/-- The rules for the opener of a tag; the text behind its braces decides. -/
def openerPiece (start rest : List Char) : Piece :=
  let plain (mark : String) (kind : TokenKind) : Option Piece :=
    if begins mark rest then
      some ⟨start ++ mark.toList, some (kind, start ++ mark.toList), .tag, false⟩
    else none
  let chain : Option Piece :=
    let lead := rest.takeWhile isBlank
    let body := rest.dropWhile isBlank
    if begins "else" body && wordEnds (body.drop 4) then
      let t := start ++ lead ++ "else".toList
      some ⟨t, some (.openInverseChain, t), .tag, false⟩
    else none
  let long : Option Piece :=
    if begins "!--" rest then some ⟨start ++ "!--".toList, none, .comment, true⟩ else none
  let short : Option Piece :=
    if begins "!" rest then
      (shortComment (rest.drop 1)).map fun body =>
        let t := start ++ '!' :: body
        ⟨t, some (.comment, t), .text, false⟩
    else none
  let found :=
    plain ">" .openPartial <|> plain "#>" .openPartialBlock <|> plain "#*" .openBlock <|>
    plain "#" .openBlock <|> plain "/" .openEndBlock <|> inverseTag false "^" start rest <|>
    inverseTag true "else" start rest <|> plain "^" .openInverse <|> chain <|>
    plain "\x7b" .openUnescaped <|> plain "&" .opener <|> long <|> short <|> plain "*" .opener
  found.getD ⟨start, some (.opener, start), .tag, false⟩

/-- A quoted string; its token's text has neither the quotes nor the backslashes before them. -/
def stringPiece (quote : Char) (s : List Char) : Option Piece :=
  match s with
  | c :: rest =>
    if c = quote then
      (quotedEnd quote rest).map fun body =>
        ⟨c :: body, some (.string, unescape [quote] body.dropLast), .tag, false⟩
    else none
  | [] => none

/-- A word that is a literal. -/
def wordPiece (word : String) (kind : TokenKind) (s : List Char) : Option Piece :=
  if begins word s && literalEnds (s.drop word.length) then
    some ⟨word.toList, some (kind, word.toList), .tag, false⟩
  else none

/-- The word `as` with the opening bar of block parameters. -/
def blockParamsPiece (s : List Char) : Option Piece :=
  if begins "as" s then
    let blanks := (s.drop 2).takeWhile isBlank
    if blanks ≠ [] ∧ begins "|" ((s.drop 2).dropWhile isBlank) then
      let t := "as".toList ++ blanks ++ ['|']
      some ⟨t, some (.openBlockParams, t), .tag, false⟩
    else none
  else none

/-- A plain name. -/
def namePiece (s : List Char) : Option Piece :=
  let name := s.takeWhile isNameChar
  if name ≠ [] ∧ nameEnds (s.dropWhile isNameChar) then
    some ⟨name, some (.id, name), .tag, false⟩
  else none

/-- A name between square brackets, which stay part of the token. -/
def bracketPiece (s : List Char) : Option Piece :=
  match s with
  | '[' :: rest =>
    (quotedEnd ']' rest).map fun body =>
      ⟨'[' :: body, some (.id, unescape ['\\', ']'] ('[' :: body)), .tag, false⟩
  | _ => none

/-- The rules for a tag. -/
def tagPiece (s : List Char) : Option Piece :=
  match s with
  | [] => some ⟨[], some (.eof, []), .tag, false⟩
  | c :: rest =>
    let parens := fixed "(" .openSexpr .tag s <|> fixed ")" .closeSexpr .tag s
    let raws := fixed "\x7b\x7b\x7b\x7b" .openRawBlock .tag s <|>
      fixed "\x7d\x7d\x7d\x7d" .closeRawBlock (.raw 0) s
    let openers := (tagStart s).map fun (start, r) => openerPiece start r
    let marks := fixed "=" .equals .tag s <|> fixed ".." .id .tag s <|>
      (if c = '.' ∧ nameEnds rest then some ⟨['.'], some (.id, ['.']), .tag, false⟩ else none) <|>
      (if c = '/' ∨ c = '.' then some ⟨[c], some (.sep, [c]), .tag, false⟩ else none) <|>
      (if isBlank c then some ⟨s.takeWhile isBlank, none, .tag, false⟩ else none)
    let closers :=
      (if c = '\x7d' then
        (tagEnd rest).map fun e => ⟨c :: e, some (.closeUnescaped, c :: e), .text, false⟩
      else none) <|>
      (tagEnd s).map fun e => ⟨e, some (.close, e), .text, false⟩
    let literals := stringPiece '"' s <|> stringPiece '\'' s <|> fixed "@" .data .tag s <|>
      wordPiece "true" .boolean s <|> wordPiece "false" .boolean s <|>
      wordPiece "undefined" .undefined s <|> wordPiece "null" .null s <|>
      (numberText s).map fun t => ⟨t, some (.number, t), .tag, false⟩
    let names := blockParamsPiece s <|> fixed "|" .closeBlockParams .tag s <|> namePiece s <|>
      bracketPiece s
    parens <|> raws <|> openers <|> marks <|> closers <|> literals <|> names <|>
      some ⟨[c], some (.invalid, [c]), .tag, false⟩

/-- The piece that the rules of a mode take. -/
def piece (mode : Mode) (s : List Char) : Option Piece :=
  match mode with
  | .text => textPiece s
  | .escaped => escapedPiece s
  | .tag => tagPiece s
  | .comment => commentPiece s
  | .raw outer => rawPiece outer s

/-! ## The reader -/

/-- Where the reader stands. -/
structure Reader where
  /-- The text to be read. -/
  rest : List Char
  /-- The text already read, its last character first. -/
  seen : List Char := []
  /-- The mode. -/
  mode : Mode := .text
  /-- The number of line ends read. -/
  lineEnds : Nat := 0
  /-- The column. -/
  column : Nat := 0
  deriving Repr

/-- The number of line ends in a text. -/
def countLineEnds : List Char → Nat
  | '\r' :: '\n' :: rest => countLineEnds rest + 1
  | c :: rest => countLineEnds rest + if c = '\n' ∨ c = '\r' then 1 else 0
  | [] => 0

/-- What stands behind the last line end of a text, if it has one. -/
def behindLastLineEnd? : List Char → Option (List Char)
  | [] => none
  | c :: rest =>
    match behindLastLineEnd? rest with
    | some tail => some tail
    | none => if c = '\n' ∨ c = '\r' then some rest else none

/-- The column behind a text that begins at a column. -/
def columnBehind (column : Nat) (text : List Char) : Nat :=
  match behindLastLineEnd? text with
  | some tail => width (tail.takeWhile fun c => c.toNat ≠ 0x2028 ∧ c.toNat ≠ 0x2029)
  | none => column + width text

/-- The characters of a text that fit into a number of units. -/
def takeUnits : Nat → List Char → List Char
  | _, [] => []
  | n, c :: rest =>
    let w := width [c]
    if w ≤ n then c :: takeUnits (n - w) rest else []

/-- The text around a piece that follows `seen`: twenty units of it on each side, without line
feeds. -/
def surroundingOf (seen taken rest : List Char) : Surrounding :=
  let dots (long : Bool) : List Char := if long then "...".toList else []
  let isLong (s : List Char) : Bool := 20 < width (s.take 21)
  let ahead := if width taken < 20 then taken ++ takeUnits (20 - width taken) rest else taken
  ⟨String.ofList (dots (isLong seen) ++ (takeUnits 20 seen).reverse.filter (· ≠ '\n')),
    String.ofList ((takeUnits 20 ahead).filter (· ≠ '\n') ++ dots (isLong ahead))⟩

/-- The reader behind a piece. -/
def Reader.advance (r : Reader) (p : Piece) : Reader :=
  if p.givenBack then { r with seen := p.taken.dropLast.reverse ++ r.seen, mode := p.next }
  else
    { rest := r.rest.drop p.taken.length
      seen := p.taken.reverse ++ r.seen
      mode := p.next
      lineEnds := r.lineEnds + countLineEnds p.taken
      column := columnBehind r.column p.taken }

/-- The token of a piece. -/
def Reader.token? (r : Reader) (p : Piece) : Option Token :=
  p.token.map fun (kind, text) =>
    { kind := kind
      text := String.ofList text
      place := ⟨r.lineEnds + 1, r.column⟩
      lineEnds := (r.advance p).lineEnds
      surrounding := surroundingOf r.seen p.taken (r.rest.drop p.taken.length) }

/-- Whether a token is the last one. -/
def TokenKind.isLast (kind : TokenKind) : Bool := kind = .eof || kind = .endOfInput

/-- The tokens of a template, and the fault that ends them if they do not end by themselves. -/
structure Tokens where
  /-- The tokens. -/
  list : List Token
  /-- The fault behind the last of them. -/
  fault : Option Fault
  deriving Repr

/-- The tokens from a point on, in at most `fuel` steps. -/
def scanFrom : (fuel : Nat) → Reader → Tokens
  | 0, _ => ⟨[], none⟩
  | fuel + 1, r =>
    match piece r.mode r.rest with
    | none => ⟨[], some (.unrecognized (r.lineEnds + 1) (surroundingOf r.seen [] r.rest))⟩
    | some p =>
      match r.token? p with
      | none => scanFrom fuel (r.advance p)
      | some t =>
        if t.kind.isLast then ⟨[t], none⟩
        else
          let rest := scanFrom fuel (r.advance p)
          { rest with list := t :: rest.list }

/-- The tokens of a template.  Every step takes a character, but for the two that only change the
mode: from text to a tag and from a tag to a comment. -/
def scan (template : String) : Tokens :=
  scanFrom (3 * template.toList.length + 3) { rest := template.toList }

end GoldenRun.Template
