import GoldenRun.Shell.Cursor

/-!
# Reading a script

A script is read line by line: `readLine` gives the commands of the next line and the place behind
it.  Words, expansions and commands can hold each other, so they are read by one family
of functions.  Its members call each other at most a fixed number of times before a character is
taken, which bounds the depth of the calls by the length of the script.
-/

namespace GoldenRun.Shell

open Reading

/-- What a run of pieces stands in. -/
inductive Setting where
  /-- A word. -/
  | word
  /-- Double quotes. -/
  | quotes
  /-- The text of an inline document. -/
  | document
  /-- The braces of a parameter. -/
  | braces (quoted : Bool)
  /-- An arithmetic expression, inside a number of parentheses. -/
  | sum (depth : Nat)
  deriving DecidableEq, Repr

namespace Setting

/-- Whether text is quoted here. -/
def quotes? : Setting → Bool
  | .word => false
  | .braces quoted => quoted
  | _ => true

/-- The characters that a backslash quotes here, when text is quoted already. -/
def escapable : Setting → List Char
  | .quotes => ['$', '\x60', '"', '\\']
  | .braces _ => ['$', '\x60', '"', '\\', '\x7d']
  | _ => ['$', '\x60', '\\']

/-- Whether a character is ordinary text, whatever stands around it. -/
def isOrdinary (c : Char) : Bool := !endsWord c && !"\\'\"$\x60\x7d".toList.contains c

end Setting

/-- Whether all arguments stand between double quotes, and nothing else: where there are none, that
is no field. -/
def isAllArguments : Word → Bool
  | [.parameter _ name .value] => name = "@"
  | _ => false

/-- What is written between backquotes, without the backslashes that serve them, and what comes
behind; none when the second backquote is missing. -/
def untilBackquote (quoted : Bool) : List Char → Option (List Char × List Char)
  | [] => none
  | '\x60' :: rest => some ([], rest)
  | '\\' :: c :: rest =>
    let kept := if ['$', '\x60', '\\'].contains c || (quoted && c = '"') then [c] else ['\\', c]
    (untilBackquote quoted rest).map fun (s, r) => (kept ++ s, r)
  | c :: rest => (untilBackquote quoted rest).map fun (s, r) => (c :: s, r)

/-- The name and the rest of a piece that begins like an assignment. -/
def assignment? : Word → Option (String × Word)
  | .text false characters :: rest =>
    let (name, behind) := characters.span (· ≠ '=')
    match behind with
    | '=' :: value =>
      if isName name then some (String.ofList name, .text false value :: rest) else none
    | _ => none
  | _ => none

/-- The characters of a word, for the mark of an inline document: quotes count, expansions do
not. -/
def markText : Word → List Char
  | [] => []
  | .text _ characters :: rest => characters ++ markText rest
  | _ :: rest => markText rest

/-- Whether no piece of a word is quoted. -/
def isBare (word : Word) : Bool :=
  word.all fun
    | .text quoted _ => !quoted
    | _ => true

/-- The special commands of a shell, whose names functions cannot have. -/
def specialNames : List String :=
  [".", ":", "break", "continue", "eval", "exec", "exit", "export", "local", "readonly", "return",
    "set", "shift", "times", "trap", "unset"]

/-- The name of a function that a word gives. -/
def functionName? (word : Word) : Option String :=
  (plainText? word).bind fun characters =>
    let name := String.ofList characters
    if isName characters && !specialNames.contains name then some name else none

/-- What a modification of a parameter begins with. -/
inductive Modifier where
  /-- A word takes its place. -/
  | fallback (kind : Fallback) (emptyIsNone : Bool)
  /-- Something is cut off. -/
  | trim (atEnd longest : Bool)

/-- The kind of fallback that a character stands for. -/
def fallbackOf? : Char → Option Fallback
  | '-' => some .default
  | '=' => some .assign
  | '?' => some .demand
  | '+' => some .alternative
  | _ => none

/-- The modification that is next, and how many characters it takes. -/
def modifier? : List Char → Option (Modifier × Nat)
  | ':' :: c :: _ => (fallbackOf? c).map fun kind => (.fallback kind true, 2)
  | '%' :: '%' :: _ => some (.trim true true, 2)
  | '#' :: '#' :: _ => some (.trim false true, 2)
  | '%' :: _ => some (.trim true false, 1)
  | '#' :: _ => some (.trim false false, 1)
  | c :: _ => (fallbackOf? c).map fun kind => (.fallback kind false, 1)
  | [] => none

/-- The name of the parameter that is next in braces; empty if there is none. -/
def takeParameter : Reading String := do
  let c ← cursor
  match c.peek? with
  | some x =>
    if beginsName x then return String.ofList (← takeWhile inName)
    else if x.isDigit then return String.ofList (← takeWhile Char.isDigit)
    else if isSpecialParameter x then
      move Cursor.advance
      return String.ofList [x]
    else return ""
  | none => return ""

/-- Whether the length of a parameter is asked for behind an opening brace: a `#` stands there, and
then a name, or one character before the closing brace. -/
def asksForLength : List Char → Bool
  | '#' :: c :: d :: _ => inName c || (c ≠ '\x7d' && d = '\x7d')
  | ['#', c] => inName c
  | _ => false

/-- The command that some stages make. -/
def pipeline : List Command → Command
  | [command] => command
  | stages => .pipeline stages

mutual

/-- Reads pieces up to the end of their setting; `done` holds those before, the last in front. -/
def readPieces : Nat → Setting → Word → Reading Word
  | 0, _, _ => unexpected none
  | n + 1, setting, done => do
    let c ← cursor
    match c.peek? with
    | none =>
      match setting with
      | .word | .document => return done.reverse
      | .quotes | .braces true => fail .openQuote
      | .braces false => fail .openBrace
      | .sum _ => fail .openSum
    | some x =>
      let quoted := setting.quotes?
      let text (characters : List Char) : Piece := .text quoted characters
      match setting with
      | .word => if endsWord x then return done.reverse
      | .quotes => if x = '"' then do move Cursor.advance; return done.reverse
      | .braces _ => if x = '\x7d' then do move Cursor.advance; return done.reverse
      | .sum 0 => if c.sees "))" then do move (·.advanceBy 2); return done.reverse
      | _ => pure ()
      if x = '\\' then
        move Cursor.advance
        match (← cursor).peek? with
        | none => readPieces n setting (text ['\\'] :: done)
        | some y =>
          if y = '\n' then
            move Cursor.advance
            readPieces n setting done
          else if !quoted || setting.escapable.contains y then
            move Cursor.advance
            readPieces n setting (.text true [y] :: done)
          else readPieces n setting (text ['\\'] :: done)
      else if x = '\'' && !quoted then
        move Cursor.advance
        let inner ← takeWhile (· ≠ '\'')
        if (← cursor).atEnd then fail .openQuote
        move Cursor.advance
        readPieces n setting (.text true inner :: done)
      else if x = '"' && (setting = .word || setting matches .braces _) then
        move Cursor.advance
        let inner ← readPieces n .quotes []
        let opening := if isAllArguments inner then [] else [.text true []]
        readPieces n setting (inner.reverse ++ opening ++ done)
      else if x = '$' then
        move Cursor.advance
        readPieces n setting ((← readDollar n quoted) :: done)
      else if x = '\x60' then
        match untilBackquote quoted (c.rest.drop 1) with
        | none => fail .openBackquote
        | some (inner, behind) =>
          let taken := c.rest.length - behind.length
          move (·.advanceBy taken)
          match (readList n).run { c with rest := inner, taken := 0, inserted := [] } with
          | .ok (script, left) =>
            if left.skipSpace.atEnd then readPieces n setting (.output quoted script :: done)
            else throw ⟨left.line, .unexpected left.skipSpace.describe none⟩
          | .error e => throw e
      else
        let next : Setting := match setting, x with
          | .sum d, '(' => .sum (d + 1)
          | .sum (d + 1), ')' => .sum d
          | s, _ => s
        let run ← takeWhile Setting.isOrdinary
        if run = [] then
          move Cursor.advance
          readPieces n next (text [x] :: done)
        else readPieces n setting (text run :: done)

/-- Reads what a dollar sign begins. -/
def readDollar : Nat → Bool → Reading Piece
  | 0, _ => unexpected none
  | n + 1, quoted => do
    let c ← cursor
    if c.sees "((" then
      move (·.advanceBy 2)
      return .arithmetic quoted (← readPieces n (.sum 0) [])
    else if c.sees "(" then
      move Cursor.advance
      let script ← readList n
      expectOperator ")"
      return .output quoted script
    else if c.sees "\x7b" then
      move Cursor.advance
      readBraces n quoted
    else match c.peek? with
      | some x =>
        if beginsName x then
          return .parameter quoted (String.ofList (← takeWhile inName)) .value
        else if isSpecialParameter x then
          move Cursor.advance
          return .parameter quoted (String.ofList [x]) .value
        else return .text quoted ['$']
      | none => return .text quoted ['$']

/-- Reads a parameter in braces, behind the opening one. -/
def readBraces : Nat → Bool → Reading Piece
  | 0, _ => unexpected none
  | n + 1, quoted => do
    let unknown (name : String) (size : Nat) : Reading Piece := do
      move (·.advanceBy size)
      let _ ← readPieces n (.braces quoted) []
      return .parameter quoted name .unknown
    if asksForLength (← cursor).rest then
      move Cursor.advance
      let name ← takeParameter
      if name ≠ "" && (← cursor).sees "\x7d" then
        move Cursor.advance
        return .parameter quoted name .length
      else unknown name 0
    else
      let name ← takeParameter
      let c ← cursor
      if name = "" then unknown name 0
      else if c.sees "\x7d" then
        move Cursor.advance
        return .parameter quoted name .value
      else match modifier? c.rest with
        | some (.fallback kind emptyIsNone, size) =>
          move (·.advanceBy size)
          let word ← readPieces n (.braces quoted) []
          return .parameter quoted name (.fallback kind emptyIsNone word)
        | some (.trim atEnd longest, size) =>
          move (·.advanceBy size)
          let pattern ← readPieces n (.braces false) []
          return .parameter quoted name (.trimmed atEnd longest pattern)
        | none => unknown name (if c.sees ":" then 2 else 1)

/-- Reads a list of commands, up to what ends it. -/
def readList : Nat → Reading Command
  | 0 => unexpected none
  | n + 1 => return .sequence (← readCommands n false [])

/-- Reads a list of commands that must not be empty, unless the script ends there: then its
closing word is missed. -/
def readBody : Nat → Reading Command
  | 0 => unexpected none
  | n + 1 => do
    let commands ← readCommands n false []
    if commands.isEmpty && !(← cursor).atEnd then unexpected none
    return .sequence commands

/-- Reads commands, on one line or on many; `done` holds those before, the last in front. -/
def readCommands : Nat → Bool → List Command → Reading (List Command)
  | 0, _, _ => unexpected none
  | n + 1, oneLine, done => do
    move (·.commandStart oneLine)
    let c ← cursor
    if c.atListEnd || c.sees "\n" then return done.reverse
    let command ← readAndOr n
    move Cursor.skipBlanks
    let c ← cursor
    if c.sees ";;" then return (command :: done).reverse
    else if c.sees ";" then
      move Cursor.advance
      readCommands n oneLine (command :: done)
    else if c.sees "&" then
      move Cursor.advance
      readCommands n oneLine (.background command :: done)
    else if c.sees "\n" && !oneLine then readCommands n oneLine (command :: done)
    else return (command :: done).reverse

/-- Reads commands joined by conditions. -/
def readAndOr : Nat → Reading Command
  | 0 => unexpected none
  | n + 1 => do
    let first ← readPipeline n
    readJoined n first

/-- Reads the commands that are joined to the one before. -/
def readJoined : Nat → Command → Reading Command
  | 0, _ => unexpected none
  | n + 1, first => do
    move Cursor.skipBlanks
    let c ← cursor
    if c.sees "&&" then
      move (·.advanceBy 2)
      move Cursor.skipSpace
      let second ← readPipeline n
      readJoined n (.andThen first second)
    else if c.sees "||" then
      move (·.advanceBy 2)
      move Cursor.skipSpace
      let second ← readPipeline n
      readJoined n (.orElse first second)
    else return first

/-- Reads a pipeline. -/
def readPipeline : Nat → Reading Command
  | 0 => unexpected none
  | n + 1 => do
    move (·.commandStart true)
    if (← cursor).keyword? = some "!" then
      move Cursor.advance
      move Cursor.skipBlanks
      return .negated (pipeline (← readStages n []))
    else return pipeline (← readStages n [])

/-- Reads the stages of a pipeline; `done` holds those before, the last in front. -/
def readStages : Nat → List Command → Reading (List Command)
  | 0, _ => unexpected none
  | n + 1, done => do
    let line := (← cursor).line
    if !done.isEmpty then move Cursor.skipSpace
    let command ← readCommand n line
    move Cursor.skipBlanks
    let c ← cursor
    if c.sees "|" && !c.sees "||" then
      move Cursor.advance
      readStages n (command :: done)
    else return (command :: done).reverse

/-- Reads one command; `line` is the one on which it is found. -/
def readCommand : Nat → Nat → Reading Command
  | 0, _ => unexpected none
  | n + 1, line => do
    move (·.commandStart true)
    let c ← cursor
    if c.sees "(" then
      move Cursor.advance
      let body ← readBody n
      expectOperator ")"
      readRedirected n line (.subshell line body)
    else match c.keyword? with
      | some "\x7b" =>
        move Cursor.advance
        let body ← readBody n
        expect "\x7d"
        readRedirected n line body
      | some "if" =>
        move (·.advanceBy 2)
        readRedirected n line (← readConditional n)
      | some "while" =>
        move (·.advanceBy 5)
        readRedirected n line (← readLoop n false)
      | some "until" =>
        move (·.advanceBy 5)
        readRedirected n line (← readLoop n true)
      | some "for" =>
        move (·.advanceBy 3)
        readRedirected n line (← readEach n line)
      | some "case" =>
        move (·.advanceBy 4)
        readRedirected n line (← readChoice n line)
      | none => readSimple n c.line [] [] []
      | some _ => unexpected none

/-- Reads the redirections behind a compound command. -/
def readRedirected : Nat → Nat → Command → Reading Command
  | 0, _, _ => unexpected none
  | n + 1, line, command => do
    match ← readRedirections n [] with
    | [] => return command
    | redirections => return .redirected line command redirections

/-- Reads redirections; `done` holds those before, the last in front. -/
def readRedirections : Nat → List Redirection → Reading (List Redirection)
  | 0, _ => unexpected none
  | n + 1, done => do
    move Cursor.skipBlanks
    if (← cursor).seesRedirection then readRedirections n ((← readRedirection n) :: done)
    else return done.reverse

/-- Reads one redirection. -/
def readRedirection : Nat → Reading Redirection
  | 0 => unexpected none
  | n + 1 => do
    let digits ← takeWhile Char.isDigit
    let number (otherwise : Nat) : Nat :=
      if digits = [] then otherwise else ((String.ofList digits).toNat?).getD otherwise
    let c ← cursor
    if c.sees "<<" then
      let dropTabs := c.sees "<<-"
      move (·.advanceBy (if dropTabs then 3 else 2))
      let mark ← readTarget n none
      let (text, behind) := (← cursor).takeDocument dropTabs (isBare mark) (markText mark)
      move fun _ => behind
      if isBare mark then
        let document := { c with rest := text, line := c.line + 1, taken := 0, inserted := [] }
        match (readPieces n .document []).run document with
        | .ok (pieces, _) => return .inline (number 0) pieces
        | .error e => throw (if e.fault = .openQuote then ⟨e.line, .openBrace⟩ else e)
      else return .inline (number 0) [.text true text]
    else if c.sees "<&" then
      move (·.advanceBy 2)
      return .copy (number 0) (← readTarget n none)
    else if c.sees ">&" then
      move (·.advanceBy 2)
      return .copy (number 1) (← readTarget n none)
    else if c.sees ">>" then
      move (·.advanceBy 2)
      return .file (number 1) .append (← readTarget n none)
    else if c.sees ">|" then
      move (·.advanceBy 2)
      return .file (number 1) .replace (← readTarget n none)
    else if c.sees "<>" then
      move (·.advanceBy 2)
      return .file (number 0) .read (← readTarget n none)
    else if c.sees "<" then
      move Cursor.advance
      return .file (number 0) .read (← readTarget n none)
    else
      move Cursor.advance
      return .file (number 1) .write (← readTarget n none)

/-- Reads a word that has to be next; where there is none, `expected` is what is missed. -/
def readTarget : Nat → Option String → Reading Word
  | 0, _ => unexpected none
  | n + 1, expected => do
    move Cursor.skipBlanks
    match ← readPieces n .word [] with
    | [] => unexpected expected
    | word => return word

/-- Reads a conditional, behind its keyword. -/
def readConditional : Nat → Reading Command
  | 0 => unexpected none
  | n + 1 => do
    let test ← readBody n
    expect "then"
    let yes ← readBody n
    match (← cursor).keyword? with
    | some "elif" =>
      move (·.advanceBy 4)
      return .conditional test yes (← readConditional n)
    | some "else" =>
      move (·.advanceBy 4)
      let no ← readBody n
      expect "fi"
      return .conditional test yes no
    | _ =>
      expect "fi"
      return .conditional test yes (.sequence [])

/-- Reads a loop, behind its keyword. -/
def readLoop : Nat → Bool → Reading Command
  | 0, _ => unexpected none
  | n + 1, whileFailing => do
    let test ← readBody n
    expect "do"
    let body ← readBody n
    expect "done"
    return .loop whileFailing test body

/-- Reads a loop over words, behind its keyword. -/
def readEach : Nat → Nat → Reading Command
  | 0, _ => unexpected none
  | n + 1, line => do
    move Cursor.skipBlanks
    let name ← takeWhile (!endsWord ·)
    if !isName name then fail .badVariable
    move Cursor.skipSpace
    if (← cursor).keyword? = some "in" then
      move (·.advanceBy 2)
      let words ← readWords n []
      let c ← cursor
      if c.sees ";" && !c.sees ";;" then move Cursor.advance
      else if !c.sees "\n" then unexpected none
      expect "do"
      let body ← readBody n
      expect "done"
      return .each line (String.ofList name) (some words) body
    else
      if (← cursor).sees ";" then move Cursor.advance
      expect "do"
      let body ← readBody n
      expect "done"
      return .each line (String.ofList name) none body

/-- Reads the words up to the end of the line; `done` holds those before, the last in front. -/
def readWords : Nat → List Word → Reading (List Word)
  | 0, _ => unexpected none
  | n + 1, done => do
    move Cursor.skipBlanks
    match ← readPieces n .word [] with
    | [] => return done.reverse
    | word => readWords n (word :: done)

/-- Reads a choice, behind its keyword. -/
def readChoice : Nat → Nat → Reading Command
  | 0, _ => unexpected none
  | n + 1, line => do
    let subject ← readTarget n (some "word")
    expect "in"
    return .choice line subject (← readBranches n [])

/-- Reads the branches of a choice; `done` holds those before, the last in front. -/
def readBranches : Nat → List (List Word × Command) → Reading (List (List Word × Command))
  | 0, _ => unexpected none
  | n + 1, done => do
    move Cursor.skipSpace
    if (← cursor).keyword? = some "esac" then
      move (·.advanceBy 4)
      return done.reverse
    else
      if (← cursor).sees "(" then move Cursor.advance
      let patterns ← readPatterns n [] [.text false "in".toList]
      let body ← readList n
      move Cursor.skipSpace
      let c ← cursor
      if c.sees ";;" then
        move (·.advanceBy 2)
        readBranches n ((patterns, body) :: done)
      else if c.keyword? = some "esac" then
        move (·.advanceBy 4)
        return ((patterns, body) :: done).reverse
      else unexpected (some (Cursor.quote ";;"))

/-- Reads the patterns of a branch; `done` holds those before, the last in front.  Something else
than a word counts as the word before it. -/
def readPatterns : Nat → List Word → Word → Reading (List Word)
  | 0, _, _ => unexpected none
  | n + 1, done, before => do
    move Cursor.skipBlanks
    let c ← cursor
    let word ← if c.seesRedirection then pure [] else readPieces n .word []
    if word = [] then move (·.advanceBy c.operatorSize)
    let pattern := if word = [] then before else word
    move Cursor.skipBlanks
    if (← cursor).sees "|" && !(← cursor).sees "||" then
      move Cursor.advance
      readPatterns n (pattern :: done) pattern
    else
      closeWords
      return (pattern :: done).reverse

/-- Reads a simple command, or the definition of a function; what was read before stands last
first. -/
def readSimple : Nat → Nat → List (String × Word) → List Word → List Redirection → Reading Command
  | 0, _, _, _, _ => unexpected none
  | n + 1, line, assignments, words, redirections => do
    move (·.wordStart words.isEmpty)
    let c ← cursor
    if c.seesRedirection then
      readSimple n line assignments words ((← readRedirection n) :: redirections)
    else
      match ← readPieces n .word [] with
      | [] =>
        match words with
        | [name] =>
          if c.sees "(" && assignments.isEmpty && redirections.isEmpty then
            move Cursor.advance
            closeWords
            match functionName? name with
            | none => fail .badFunctionName
            | some name =>
              let line := (← cursor).line
              move Cursor.skipSpace
              return .define name (← readCommand n line)
        | _ => pure ()
        if assignments.isEmpty && words.isEmpty && redirections.isEmpty then unexpected none
        return .simple line assignments.reverse words.reverse redirections.reverse
      | word =>
        let isFirst := assignments.isEmpty && words.isEmpty && redirections.isEmpty
        let here := (← cursor).line
        let line := if isFirst then here else line
        match words, assignment? word with
        | [], some assignment => readSimple n line (assignment :: assignments) words redirections
        | _, _ => readSimple n line assignments (word :: words) redirections

end

/-- Reads the commands of the next line; the answer is none at the end of the script, and otherwise
the commands and the place behind them. -/
def readLine (c : Cursor) : Except SyntaxError (Option (Command × Cursor)) :=
  let c := c.skipSpace
  if c.atEnd then .ok none
  else
    let added := c.aliases.foldl (fun n entry => n + entry.2.length) 1
    match (readCommands (20 * (c.rest.length + 1) * added + 100) true []).run c with
    | .error e => .error e
    | .ok (commands, next) =>
      if next.atEnd || next.sees "\n" then .ok (some (.sequence commands, next.advance))
      else .error ⟨next.line, .unexpected next.describe none⟩

/-- The word that a text is, if it is read like that of an inline document. -/
def readInline (text : List Char) : Option Word :=
  match (readPieces (20 * text.length + 100) .document []).run { rest := text } with
  | .ok (word, _) => some word
  | .error _ => none

end GoldenRun.Shell
