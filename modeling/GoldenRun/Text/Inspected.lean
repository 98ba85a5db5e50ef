import GoldenRun.Text.Units

/-!
# Inspected text

A text as a diagnosis shows it: in single quotes, or in double quotes when it holds a single quote
and no double one, or in backquotes when it holds both of these but neither a backquote nor a
dollar sign with a brace.  Control characters are escaped.

A text that does not fit on its line is cut behind each of its line ends; the pieces are quoted
each for itself and joined with plus signs.  Where a diagnosis shows a received argument, only the
first 128 units are shown.
-/

namespace GoldenRun.Text

/-- A byte as two hexadecimal capitals. -/
def upperHex (n : Nat) : List Char :=
  let digit (n : Nat) : Char := if n < 10 then Char.ofNat (0x30 + n) else Char.ofNat (0x41 + n - 10)
  [digit (n / 16 % 16), digit (n % 16)]

/-- A character as it stands between quotes of the given kind. -/
def inspectedChar (quote c : Char) : List Char :=
  let n := c.toNat
  if c = '\\' then ['\\', '\\']
  else if c = '\'' then (if quote = '\'' then ['\\', '\''] else [c])
  else if n = 0x08 then ['\\', 'b']
  else if n = 0x09 then ['\\', 't']
  else if n = 0x0A then ['\\', 'n']
  else if n = 0x0C then ['\\', 'f']
  else if n = 0x0D then ['\\', 'r']
  else if n < 0x20 || (0x7F ≤ n && n ≤ 0x9F) then '\\' :: 'x' :: upperHex n
  else [c]

/-- The kind of quote for a text. -/
def inspectedQuote (text : List Char) : Char :=
  if !text.contains '\'' then '\''
  else if !text.contains '"' then '"'
  else if !text.contains '\x60' && !(text.zip (text.drop 1)).contains ('$', '\x7b') then '\x60'
  else '\''

/-- A text in quotes, on one line. -/
def inspectedPiece (text : List Char) : List Char :=
  let quote := inspectedQuote text
  quote :: (text.flatMap (inspectedChar quote) ++ [quote])

/-- The pieces of a text, each up to and with a line end; `reversed` is the piece so far. -/
def linePieces (reversed : List Char) : List Char → List (List Char)
  | [] => if reversed = [] then [] else [reversed.reverse]
  | c :: rest =>
    if c = '\n' then (c :: reversed).reverse :: linePieces [] rest
    else linePieces (c :: reversed) rest

/-- The width of a line of inspected values. -/
def inspectedWidth : Nat := 80

/-- A text as it stands among inspected values, some columns from the left. -/
def inspectedAt (indentation : Nat) (text : String) : String :=
  let chars := text.toList
  if 16 < width chars && inspectedWidth < width chars + indentation + 4 then
    (" +\n" ++ String.ofList (List.replicate (indentation + 2) ' ')).intercalate
      ((linePieces [] chars).map fun piece => String.ofList (inspectedPiece piece))
  else String.ofList (inspectedPiece chars)

/-- A received argument as a diagnosis shows it. -/
def inspected (text : String) : String :=
  let shown := inspectedAt 0 text
  if 128 < stringWidth shown then
    String.ofList (ofUnits ((shown.toList.flatMap units).take 128)) ++ "..."
  else shown

end GoldenRun.Text
