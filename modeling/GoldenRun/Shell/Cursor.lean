import GoldenRun.Shell.Script

/-!
# A place in a script

A `Cursor` stands between two characters of a script and counts lines.  The text of an inline
document stands behind the line that announces it; `takeDocument` takes it away from there, and its
lines are counted once the end of that line is passed.

The text of an alias is put in the place of its name where a command begins, and that place is
looked at again; but an alias has no meaning inside its own text.  Behind a text that ends in a
blank the next word may be an alias, too.
-/

namespace GoldenRun.Shell

/-- What is wrong with a script. -/
inductive SyntaxFault where
  /-- Something stands where it cannot; both are called as a diagnosis calls them. -/
  | unexpected (found : String) (expected : Option String)
  /-- A quote is left open. -/
  | openQuote
  /-- A brace is left open. -/
  | openBrace
  /-- A backquote is left open. -/
  | openBackquote
  /-- An arithmetic expression is left open. -/
  | openSum
  /-- A function cannot have such a name. -/
  | badFunctionName
  /-- A loop has no proper variable. -/
  | badVariable
  deriving DecidableEq, Repr

/-- The message of a fault. -/
def SyntaxFault.message : SyntaxFault → String
  | .unexpected found expected =>
    "Syntax error: " ++ found ++ " unexpected" ++
      expected.elim "" fun e => " (expecting " ++ e ++ ")"
  | .openQuote => "Syntax error: Unterminated quoted string"
  | .openBrace => "Syntax error: Missing '\x7d'"
  | .openBackquote => "Syntax error: EOF in backquote substitution"
  | .openSum => "Syntax error: Missing '))'"
  | .badFunctionName => "Syntax error: Bad function name"
  | .badVariable => "Syntax error: Bad for loop variable"

/-- A fault on a line. -/
structure SyntaxError where
  /-- The number of the line. -/
  line : Nat
  /-- The fault. -/
  fault : SyntaxFault
  deriving DecidableEq, Repr

/-- The text of an alias that was put into a script. -/
structure AliasText where
  /-- The name of the alias. -/
  name : String
  /-- How many characters stand behind the text. -/
  behind : Nat
  /-- Whether the text ends in a blank. -/
  endsBlank : Bool
  deriving DecidableEq, Repr

/-- A place in a script. -/
structure Cursor where
  /-- What is ahead. -/
  rest : List Char
  /-- The number of the line. -/
  line : Nat := 1
  /-- The lines that were taken away behind this one. -/
  taken : Nat := 0
  /-- The aliases. -/
  aliases : List (String × String) := []
  /-- The texts of aliases that were put in and are not known to be passed. -/
  inserted : List AliasText := []
  deriving Repr, Inhabited

/-- A step of reading. -/
abbrev Reading (α : Type) := StateT Cursor (Except SyntaxError) α

/-! ## Characters and words of the language -/

/-- Whether a character ends a word. -/
def endsWord (c : Char) : Bool := " \t\n;&|<>()".toList.contains c

/-- Whether a character can begin a name. -/
def beginsName (c : Char) : Bool := c.isAlpha || c = '_'

/-- Whether a character can stand in a name. -/
def inName (c : Char) : Bool := c.isAlphanum || c = '_'

/-- Whether a text is a name. -/
def isName (s : List Char) : Bool := s.head?.any beginsName && s.all inName

/-- Whether a character names a parameter by itself. -/
def isSpecialParameter (c : Char) : Bool := "@*#?-$!".toList.contains c || c.isDigit

/-- The words that open, divide and close compound commands. -/
def keywords : List String :=
  ["if", "then", "else", "elif", "fi", "do", "done", "case", "esac", "while", "until", "for",
    "\x7b", "\x7d", "!", "in"]

/-- The keywords that cannot begin a command. -/
def closingKeywords : List String :=
  ["then", "else", "elif", "fi", "do", "done", "esac", "\x7d"]

namespace Cursor

/-- The next character. -/
def peek? (c : Cursor) : Option Char := c.rest.head?

/-- Whether the given text is next. -/
def sees (c : Cursor) (text : String) : Bool := text.toList.isPrefixOf c.rest

/-- Whether nothing is ahead. -/
def atEnd (c : Cursor) : Bool := c.rest.isEmpty

/-- Behind the next character. -/
def advance (c : Cursor) : Cursor :=
  match c.rest with
  | [] => c
  | '\n' :: rest => { c with rest, line := c.line + 1 + c.taken, taken := 0 }
  | _ :: rest => { c with rest }

/-- Behind the next `n` characters. -/
def advanceBy (c : Cursor) : Nat → Cursor
  | 0 => c
  | n + 1 => c.advance.advanceBy n

/-- The lines that end in front of the next token, and what is ahead of it. -/
def blanks : List Char → Nat × List Char
  | ' ' :: rest => blanks rest
  | '\t' :: rest => blanks rest
  | '\\' :: '\n' :: rest => let (n, s) := blanks rest; (n + 1, s)
  | s => (0, if s.head? = some '#' then s.dropWhile (· ≠ '\n') else s)

/-- Behind the blanks and the comment that are next. -/
def skipBlanks (c : Cursor) : Cursor :=
  let (n, rest) := blanks c.rest
  { c with rest, line := c.line + n }

/-- Behind blanks, comments and up to `n` ends of lines. -/
def skipLines (c : Cursor) : Nat → Cursor
  | 0 => c.skipBlanks
  | n + 1 => if c.skipBlanks.sees "\n" then c.skipBlanks.advance.skipLines n else c.skipBlanks

/-- Behind blanks, comments and ends of lines. -/
def skipSpace (c : Cursor) : Cursor := c.skipLines c.rest.length

/-- The keyword that is next. -/
def keyword? (c : Cursor) : Option String :=
  let word := String.ofList (c.rest.takeWhile (!endsWord ·))
  if keywords.contains word then some word else none

/-- The cursor before the text of the alias whose name is next, if one is; `isFirst` says that
keywords come first. -/
def withAlias? (isFirst : Bool) (c : Cursor) : Option Cursor :=
  if c.aliases.isEmpty then none
  else
    let word := c.rest.takeWhile (!endsWord ·)
    let name := String.ofList word
    let inside := c.inserted.filter (·.behind < c.rest.length)
    if (isFirst && keywords.contains name) || inside.any (·.name = name) then none
    else (c.aliases.lookup name).map fun text =>
      let behind := c.rest.drop word.length
      let endsBlank := text.toList.getLast?.any fun x => x = ' ' || x = '\t'
      { c with
        rest := text.toList ++ behind
        inserted := ⟨name, behind.length, endsBlank⟩ :: inside }

/-- Where the next command begins, perhaps on a later line, with aliases replaced. -/
def commandStart (oneLine : Bool) (c : Cursor) : Cursor :=
  go ((c.rest.length + 1) * (c.aliases.length + 1)) c
where
  /-- Goes on for at most a number of aliases. -/
  go : Nat → Cursor → Cursor
    | 0, c => c
    | n + 1, c =>
      let c := if oneLine then c.skipBlanks else c.skipSpace
      match c.withAlias? true with
      | some d => go n d
      | none => c

/-- Where the next word of a command begins, with aliases replaced if it can be one: if nothing but
assignments stands before it, or the text of an alias that ends in a blank. -/
def wordStart (canBeAlias : Bool) (c : Cursor) : Cursor :=
  go (if c.aliases.isEmpty then 0 else c.rest.length + 1) canBeAlias c.skipBlanks
where
  /-- Goes on for at most a number of aliases. -/
  go : Nat → Bool → Cursor → Cursor
    | 0, _, c => c
    | n + 1, canBeAlias, c =>
      let (passed, ahead) := c.inserted.partition (c.rest.length ≤ ·.behind)
      let canBeAlias := canBeAlias || passed.any (·.endsBlank)
      let c := { c with inserted := ahead }
      match if canBeAlias then c.withAlias? false else none with
      | some d => go n true d.skipBlanks
      | none => c

/-- Whether a list of commands ends here. -/
def atListEnd (c : Cursor) : Bool :=
  c.atEnd || c.sees ")" || c.sees ";;" || c.keyword?.any closingKeywords.contains

/-- The operators, those that begin others behind them. -/
def operators : List String := [";;", "&&", "||", ";", "&", "|", "(", ")"]

/-- How many characters the operator that is next has, with a descriptor in front of it. -/
def operatorSize (c : Cursor) : Nat :=
  let digits := (c.rest.takeWhile Char.isDigit).length
  let arrows := ["<<-", "<<", "<&", "<>", ">>", ">&", ">|"]
  digits + ((arrows ++ operators).find? (c.advanceBy digits).sees).elim 1 String.length

/-- How a diagnosis calls an operator or a keyword. -/
def quote (s : String) : String := "\"" ++ s ++ "\""

/-- How a diagnosis calls what is next where keywords are words like others. -/
def describeWord (c : Cursor) : String :=
  if c.atEnd then "end of file"
  else if c.sees "\n" then "newline"
  else match operators.find? c.sees with
    | some o => quote o
    | none => if c.sees "<" || c.sees ">" then "redirection" else "word"

/-- How a diagnosis calls what is next. -/
def describe (c : Cursor) : String :=
  match c.keyword? with
  | some k => quote k
  | none => c.describeWord

/-- Whether a redirection is next, perhaps with a descriptor of one digit in front. -/
def seesRedirection (c : Cursor) : Bool :=
  let isArrow (x : Char) : Bool := x = '<' || x = '>'
  match c.rest with
  | x :: y :: _ => isArrow x || (x.isDigit && isArrow y)
  | [x] => isArrow x
  | [] => false

/-- The lines up to the one that is `mark`, without the tabs at their beginning if they are to be
dropped; with the number of lines, and what comes behind.  If they are to be joined, a line that
ends in a backslash goes on with the next one; `fresh` says that no line goes on here. -/
def documentLines (dropTabs joins : Bool) (mark : List Char) :
    Nat → Bool → List Char → List Char × Nat × List Char
  | 0, _, s => ([], 0, s)
  | n + 1, fresh, s =>
    if s = [] then ([], 0, [])
    else
      let raw := s.takeWhile (· ≠ '\n')
      let line := if dropTabs && fresh then raw.dropWhile (· = '\t') else raw
      let ending := (s.drop raw.length).take 1
      let behind := (s.drop raw.length).drop 1
      if fresh && line = mark then ([], 1, behind)
      else
        let goesOn := joins && (raw.reverse.takeWhile (· = '\\')).length % 2 = 1
        let (text, count, rest) := documentLines dropTabs joins mark n (!goesOn) behind
        (line ++ ending ++ text, count + 1, rest)

/-- The text of the document that stands behind this line, and the cursor with that text taken
away. -/
def takeDocument (c : Cursor) (dropTabs joins : Bool) (mark : List Char) : List Char × Cursor :=
  let line := c.rest.takeWhile (· ≠ '\n')
  let behind := (c.rest.drop line.length).drop 1
  let (text, count, rest) := documentLines dropTabs joins mark (behind.length + 1) true behind
  (text, { c with rest := line ++ '\n' :: rest, taken := c.taken + count })

end Cursor

namespace Reading

/-- What is ahead. -/
def cursor : Reading Cursor := get

/-- Moves the cursor. -/
def move (f : Cursor → Cursor) : Reading Unit := modify f

/-- Fails here. -/
def fail {α : Type} (fault : SyntaxFault) : Reading α := do throw ⟨(← get).line, fault⟩

/-- Fails because of what is next, which has a name; the end of a line counts to the next one. -/
def unexpectedAs {α : Type} (name : Cursor → String) (expected : Option String) : Reading α := do
  let c ← cursor
  throw ⟨if c.sees "\n" then c.line + 1 else c.line, .unexpected (name c) expected⟩

/-- Fails because of what is next. -/
def unexpected {α : Type} (expected : Option String) : Reading α :=
  unexpectedAs Cursor.describe expected

/-- Goes over a keyword that has to be next. -/
def expect (keyword : String) : Reading Unit := do
  move Cursor.skipSpace
  if (← cursor).keyword? = some keyword then move (·.advanceBy keyword.length)
  else unexpected (some (Cursor.quote keyword))

/-- Goes over an operator that has to be next. -/
def expectOperator (operator : String) : Reading Unit := do
  move Cursor.skipBlanks
  if (← cursor).sees operator then move (·.advanceBy operator.length)
  else unexpected (some (Cursor.quote operator))

/-- Goes over the parenthesis that has to close something that holds words, not commands. -/
def closeWords : Reading Unit := do
  move Cursor.skipBlanks
  if (← cursor).sees ")" then move Cursor.advance
  else unexpectedAs Cursor.describeWord (some (Cursor.quote ")"))

/-- Goes over the characters that are next as long as they satisfy a condition. -/
def takeWhile (p : Char → Bool) : Reading (List Char) := do
  let taken := (← cursor).rest.takeWhile p
  move (·.advanceBy taken.length)
  return taken

end Reading

end GoldenRun.Shell
