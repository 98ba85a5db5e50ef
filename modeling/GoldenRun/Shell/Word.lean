import GoldenRun.Text.Split

/-!
# Shell words

A command line is echoed so that a shell would read back the same words: a word made of plain
characters stands for itself, and any other word is put in single quotes, with every single quote
in it written as `'\''`.

`splitWords` is the shell's own rule for words, as far as quoting and blanks go; it is the other
side of `commandLine`.
-/

namespace GoldenRun.Shell

open GoldenRun.Text

/-- Whether a character needs no quotes. -/
def isPlain (c : Char) : Bool := c.isAlphanum || "_@%+=:,./-".toList.contains c

/-- One character of a word between single quotes. -/
def quoteChar (c : Char) : List Char := if c = '\'' then ['\'', '\\', '\'', '\''] else [c]

/-- A word as it stands in a command line. -/
def quoteWord (word : List Char) : List Char :=
  if word ≠ [] ∧ word.all isPlain then word
  else '\'' :: (word.flatMap quoteChar ++ ['\''])

/-- The command line of some words. -/
def wordsLine (words : List (List Char)) : List Char := join ' ' (words.map quoteWord)

/-- The command line of a command and its arguments. -/
def commandLine (command : String) (args : List String) : String :=
  String.ofList (wordsLine ((command :: args).map String.toList))

/-- Whether the reader of words is between words, in one, or in one between single quotes. -/
inductive WordState where
  /-- Between words. -/
  | between
  /-- In a word, whose characters so far stand last first. -/
  | inWord (done : List Char)
  /-- In a word and between single quotes. -/
  | inQuotes (done : List Char)
  deriving DecidableEq, Repr

/-- Whether an unquoted character separates words. -/
def separatesWords (c : Char) : Bool := c = ' ' || c = '\t' || c = '\n'

/-- The words of a text; none when a quote is left open or a backslash ends the text. -/
def splitFrom : WordState → List Char → Option (List (List Char))
  | .between, [] => some []
  | .inWord done, [] => some [done.reverse]
  | .inQuotes _, [] => none
  | .inQuotes done, c :: rest =>
    if c = '\'' then splitFrom (.inWord done) rest else splitFrom (.inQuotes (c :: done)) rest
  | .between, '\\' :: c :: rest => splitFrom (.inWord [c]) rest
  | .inWord done, '\\' :: c :: rest => splitFrom (.inWord (c :: done)) rest
  | .between, c :: rest =>
    if separatesWords c then splitFrom .between rest
    else if c = '\'' then splitFrom (.inQuotes []) rest
    else if c = '\\' then none
    else splitFrom (.inWord [c]) rest
  | .inWord done, c :: rest =>
    if separatesWords c then (splitFrom .between rest).map (done.reverse :: ·)
    else if c = '\'' then splitFrom (.inQuotes done) rest
    else if c = '\\' then none
    else splitFrom (.inWord (c :: done)) rest

/-- The words of a text, read by the rules of a shell. -/
def splitWords (text : List Char) : Option (List (List Char)) := splitFrom .between text

end GoldenRun.Shell
