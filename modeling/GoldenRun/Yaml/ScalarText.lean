import GoldenRun.Text.Split
import GoldenRun.Yaml.Resolution

/-!
# How a text is written as a scalar

A text is written plain where it reads back as itself, between single quotes where it does not,
and between double quotes where it holds characters that must be escaped.  A text of several
lines is written as a literal block, and as a folded block if one of its lines is too long.
-/

namespace GoldenRun.Yaml

open GoldenRun.Text GoldenRun.Number

/-- The blanks of one level of indentation. -/
def indentWidth : Nat := 2

/-- The columns that a line should not exceed. -/
def lineWidth : Nat := 120

/-- The least number of columns left to a text, however deep it stands. -/
def leastWidth : Nat := 40

/-- Whether a character may be written as it is. -/
def isPrintable (c : Char) : Bool :=
  let n := c.toNat
  (0x20 ≤ n && n ≤ 0x7E) || (0xA1 ≤ n && n ≤ 0xD7FF && n != 0x2028 && n != 0x2029) ||
    (0xE000 ≤ n && n ≤ 0xFFFD && n != 0xFEFF) || 0x10000 ≤ n

/-- Whether a character may begin a plain scalar. -/
def beginsPlain (c : Char) : Bool :=
  isPrintable c && !isWhite c && !"-?:,[]{}#&*!|=>'\"%@\x60".toList.contains c

/-- Whether a character may end a plain scalar. -/
def endsPlainText (c : Char) : Bool := !isWhite c && c != ':'

/-- Whether a character may follow another in a plain scalar. -/
def followsPlain (previous : Option Char) (c : Char) : Bool :=
  let solid := isPrintable c && !isWhite c
  (isPrintable c && c != '#' && !(previous = some ':' && !solid)) ||
    (c = '#' && previous.any fun p => isPrintable p && !isWhite p) ||
    (previous = some ':' && solid)

/-- Whether every character of a text may follow the one before it in a plain scalar. -/
def allFollowPlain : Option Char → List Char → Bool
  | _, [] => true
  | previous, c :: rest => followsPlain previous c && allFollowPlain (some c) rest

/-- Whether a text could stand as a plain scalar, its meaning aside. -/
def isPlainText (text : List Char) : Bool :=
  text.head?.any beginsPlain && text.getLast?.any endsPlainText && allFollowPlain none text

/-- Words that once stood for truth values. -/
def oldTruthWords : List String :=
  ["y", "Y", "yes", "Yes", "YES", "on", "On", "ON", "n", "N", "no", "No", "NO", "off", "Off",
    "OFF"]

/-- Whether a text once stood for a number in base sixty. -/
def isOldSexagesimal (text : List Char) : Bool :=
  let digits (s : List Char) : Bool := s != [] && s.all fun c => c.isDigit || c = '_'
  match (split ':' (takeSign text).2).reverse with
  | last :: more :: rest =>
    (more :: rest).all digits && digits (last.takeWhile (· ≠ '.')) &&
      ((last.dropWhile (· ≠ '.')).drop 1).all fun c => c.isDigit || c = '_'
  | _ => false

/-- Whether a plain scalar would not be read as the text that it is. -/
def isAmbiguous (text : String) : Bool :=
  text = mergeWord || !(plainValue text matches .string _)

/-! ## Styles -/

/-- The styles in which a text is written. -/
inductive ScalarStyle where
  /-- As it is. -/
  | plain
  /-- Between single quotes. -/
  | single
  /-- Between double quotes. -/
  | double
  /-- As a block whose lines are kept. -/
  | literal
  /-- As a block whose long lines are folded. -/
  | folded
  deriving DecidableEq, Repr

/-- Whether a line can be folded: it is too long, and does not begin with a blank. -/
def isFoldable (room : Nat) (line : List Char) : Bool :=
  room < width line && line.head? != some ' '

/-- The style for a text that is not empty.  A key stands on one line. -/
def scalarStyle (key : Bool) (room : Nat) (text : List Char) : ScalarStyle :=
  let long := !key && (split '\n' text).any (isFoldable room)
  if text.any fun c => !isPrintable c && (key || c != '\n') then .double
  else if key || !(text.contains '\n' || long) then
    if isPlainText text && !isAmbiguous (String.ofList text) then .plain else .single
  else if long then .folded
  else .literal

/-! ## Quotes -/

/-- The letter that stands for a character behind a backslash. -/
def escapeLetter? (c : Char) : Option Char :=
  [('\x00', '0'), ('\x07', 'a'), ('\x08', 'b'), ('\t', 't'), ('\n', 'n'), ('\x0B', 'v'),
    ('\x0C', 'f'), ('\r', 'r'), ('\x1B', 'e'), ('"', '"'), ('\\', '\\'), ('\u0085', 'N'),
    ('\u00A0', '_'), ('\u2028', 'L'), ('\u2029', 'P')].lookup c

/-- A number in capital hexadecimal digits. -/
def hexText (columns n : Nat) : List Char :=
  let digits := (Nat.toDigits 16 n).map Char.toUpper
  List.replicate (columns - digits.length) '0' ++ digits

/-- A character as it stands between double quotes. -/
def escapeChar (c : Char) : List Char :=
  match escapeLetter? c with
  | some letter => ['\\', letter]
  | none =>
    let n := c.toNat
    if isPrintable c then [c]
    else if n ≤ 0xFF then '\\' :: 'x' :: hexText 2 n
    else if n ≤ 0xFFFF then '\\' :: 'u' :: hexText 4 n
    else '\\' :: 'U' :: hexText 8 n

/-- A text between double quotes. -/
def doubleText (text : List Char) : List Char := '"' :: (text.flatMap escapeChar ++ ['"'])

/-- A text between single quotes. -/
def singleText (text : List Char) : List Char :=
  '\'' :: (text.flatMap (fun c => if c = '\'' then ['\'', '\''] else [c]) ++ ['\''])

/-! ## Blocks -/

/-- Whether a block must say how it is indented. -/
def needsIndicator (text : List Char) : Bool := (text.dropWhile (· = '\n')).head? = some ' '

/-- What stands behind the mark of a block, with the end of the line. -/
def blockHeaderText (text : List Char) : List Char :=
  let chomping := match text.reverse with
    | '\n' :: rest => if rest = [] || rest.head? = some '\n' then ['+'] else []
    | _ => ['-']
  (if needsIndicator text then Nat.toDigits 10 indentWidth else []) ++ chomping ++ ['\n']

/-- The lines of a text, each indented unless it is empty. -/
def indented (columns : Nat) (text : List Char) : List Char :=
  join '\n' ((split '\n' text).map fun line =>
    if line = [] then [] else List.replicate columns ' ' ++ line)

/-- A text without the line feed at its end. -/
def dropLastBreak (text : List Char) : List Char :=
  if text.getLast? = some '\n' then text.dropLast else text

/-- A line cut at every blank behind which stands none. -/
def foldPieces : List Char → List (List Char)
  | [] => [[]]
  | c :: rest =>
    if c = ' ' && rest.head?.any (· ≠ ' ') then [] :: foldPieces rest
    else match foldPieces rest with
      | [] => [[c]]
      | piece :: pieces => (c :: piece) :: pieces

/-- Pieces filled into lines of at most `room` columns, as long as they can be cut. -/
def fillLines (room : Nat) (line : List Char) : List (List Char) → List (List Char)
  | [] => [line]
  | piece :: rest =>
    let longer := line ++ ' ' :: piece
    if room < width longer then line :: fillLines room piece rest
    else fillLines room longer rest

/-- A line, folded; one that begins with a blank is kept. -/
def foldLine (room : Nat) (line : List Char) : List Char :=
  if line.head?.all (· = ' ') then line
  else match foldPieces line with
    | [] => line
    | piece :: pieces => join '\n' (fillLines room piece pieces)

/-- The lines behind the first, folded.  A line break between two lines that are folded is
doubled; `breaks` are the line breaks since the last line that is not empty, and `more` tells
whether that one began with a blank. -/
def foldRest (room : Nat) : Bool → Nat → List (List Char) → List Char
  | _, breaks, [] => List.replicate breaks '\n'
  | more, breaks, line :: rest =>
    if line = [] then foldRest room more (breaks + 1) rest
    else
      let indented := line.head? = some ' '
      List.replicate (breaks + 1) '\n' ++ (if !more && !indented then ['\n'] else []) ++
        foldLine room line ++ foldRest room indented 0 rest

/-- A text, folded. -/
def foldText (room : Nat) (text : List Char) : List Char :=
  match split '\n' text with
  | [] => []
  | first :: rest =>
    foldLine room first ++
      foldRest room (text.head?.any fun c => c = '\n' || c = ' ') 0 rest

/-! ## Scalars -/

/-- A text as a scalar at a level of indentation. -/
def scalarText (key : Bool) (level : Nat) (text : String) : List Char :=
  let chars := text.toList
  if chars = [] then ['\'', '\'']
  else if oldTruthWords.contains text || isOldSexagesimal chars then
    '\'' :: (chars ++ ['\''])
  else
    let columns := indentWidth * max 1 level
    let room := max (min lineWidth leastWidth) (lineWidth - columns)
    match scalarStyle key room chars with
    | .plain => chars
    | .single => singleText chars
    | .double => doubleText chars
    | .literal => '|' :: (blockHeaderText chars ++ dropLastBreak (indented columns chars))
    | .folded =>
      '>' :: (blockHeaderText chars ++ dropLastBreak (indented columns (foldText room chars)))

end GoldenRun.Yaml
