/-!
# Shell scripts

A script as it is carried out.  A word is a list of pieces: text, and expansions that are filled in
when the word is needed.  Every piece knows whether it was quoted; what is quoted is neither cut
into fields nor taken as a pattern.
-/

namespace GoldenRun.Shell

/-- What takes the place of a parameter. -/
inductive Fallback where
  /-- The word, if the parameter has no value. -/
  | default
  /-- The word, if the parameter has no value; it becomes the value. -/
  | assign
  /-- Nothing: without a value the shell gives up with the word. -/
  | demand
  /-- The word, if the parameter has a value. -/
  | alternative
  deriving DecidableEq, Repr, Inhabited

/-- How a file is opened. -/
inductive OpenMode where
  /-- For reading. -/
  | read
  /-- For writing, empty; a shell can be told not to do so to a file that is there. -/
  | write
  /-- For writing, empty in any case. -/
  | replace
  /-- For writing at its end. -/
  | append
  deriving DecidableEq, Repr, Inhabited

mutual

/-- A piece of a word. -/
inductive Piece where
  /-- Characters that stand for themselves. -/
  | text (quoted : Bool) (characters : List Char)
  /-- The value of a parameter, or what is made of it. -/
  | parameter (quoted : Bool) (name : String) (use : Use)
  /-- What a script writes. -/
  | output (quoted : Bool) (script : Command)
  /-- The value of an arithmetic expression. -/
  | arithmetic (quoted : Bool) (expression : List Piece)

/-- What is made of the value of a parameter. -/
inductive Use where
  /-- The value itself. -/
  | value
  /-- Its length. -/
  | length
  /-- The value or a word; an empty value may count as none. -/
  | fallback (kind : Fallback) (emptyIsNone : Bool) (word : List Piece)
  /-- The value without the shortest or longest match of a pattern at its beginning or end. -/
  | trimmed (atEnd longest : Bool) (pattern : List Piece)
  /-- Something that nothing can be made of. -/
  | unknown

/-- A change of the descriptors of a command. -/
inductive Redirection where
  /-- Opens a file. -/
  | file (descriptor : Nat) (mode : OpenMode) (path : List Piece)
  /-- Makes a descriptor the same as another one, or closes it. -/
  | copy (descriptor : Nat) (source : List Piece)
  /-- Reads from a text. -/
  | inline (descriptor : Nat) (text : List Piece)

/-- A command.  The kinds that can fail before another command begins know their line. -/
inductive Command where
  /-- Assignments, and the words of a command with its arguments. -/
  | simple (line : Nat) (assignments : List (String × List Piece)) (words : List (List Piece))
    (redirections : List Redirection)
  /-- A command with changed descriptors. -/
  | redirected (line : Nat) (command : Command) (redirections : List Redirection)
  /-- A command whose success is failure. -/
  | negated (command : Command)
  /-- Commands side by side, each of which reads what the one before it writes. -/
  | pipeline (stages : List Command)
  /-- Two commands, the second only if the first succeeds. -/
  | andThen (first second : Command)
  /-- Two commands, the second only if the first fails. -/
  | orElse (first second : Command)
  /-- Commands one after the other. -/
  | sequence (commands : List Command)
  /-- A command in the background. -/
  | background (command : Command)
  /-- A command in a shell of its own. -/
  | subshell (line : Nat) (command : Command)
  /-- One command or another. -/
  | conditional (test yes no : Command)
  /-- A command again and again, as long as a test succeeds, or fails. -/
  | loop (whileFailing : Bool) (test body : Command)
  /-- A command for each of some words, or for each argument. -/
  | each (line : Nat) (name : String) (words : Option (List (List Piece))) (body : Command)
  /-- The first command of which a pattern matches. -/
  | choice (line : Nat) (subject : List Piece)
    (branches : List (List (List Piece) × Command))
  /-- The definition of a function. -/
  | define (name : String) (body : Command)

end

instance : Inhabited Command := ⟨.sequence []⟩

/-- A word: its pieces. -/
abbrev Word := List Piece

/-- The characters of a word without quotes and expansions. -/
def plainText? : Word → Option (List Char)
  | [] => some []
  | .text false characters :: rest => (plainText? rest).map (characters ++ ·)
  | _ => none

end GoldenRun.Shell
