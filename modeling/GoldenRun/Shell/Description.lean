import GoldenRun.Shell.Builtin

/-!
# What a name means as a command

A name is looked up among the keywords, the aliases, the functions, the commands of the shell and
the programs on the search path, in this order.  A shell remembers where it has found a program, up
to the next change of the search path.
-/

namespace GoldenRun.Shell

/-- What a name means as a command. -/
inductive CommandKind where
  /-- A keyword. -/
  | keyword
  /-- A name for a text. -/
  | alias (text : String)
  /-- A function. -/
  | function
  /-- A command of the shell itself. -/
  | builtin (special : Bool)
  /-- A program, by its path; its place may be remembered. -/
  | program (path : String) (remembered : Bool)
  deriving DecidableEq, Repr

/-- The commands that carry out others, those that are special in front. -/
def carriers : List (String × Bool) :=
  [("exec", true), ("eval", true), (".", true), ("command", false), ("type", false),
    ("hash", false)]

/-- Whether a name is a command of the shell itself, and if so whether it is special. -/
def builtinKind? (name : String) : Option Bool :=
  if specialBuiltins.any (·.1 = name) then some true
  else if ordinaryBuiltins.any (·.1 = name) then some false
  else carriers.lookup name

/-- Where the program of a name is. -/
def programPlace? (name : String) : Task (Option String) := do
  let s ← Task.shell
  let disk := (← Task.machine).disk
  if name = "" then return none
  else if name.toList.contains '/' then
    return if disk.hasEntry s.cwd (Text.ofUtf8Octets name) then some name else none
  else
    let places := (s.value? "PATH").elim [] (Launch.candidates · name)
    return places.find? fun path => (Launch.executable disk s.cwd path).toOption.isSome

/-- Remembers where a program is, if it has to be looked for and is there. -/
def rememberProgram (name : String) : Task Unit := do
  let s ← Task.shell
  if !name.toList.contains '/' && !s.remembered.contains name then
    if (← programPlace? name).isSome then
      Task.change fun s => { s with remembered := s.remembered ++ [name] }

/-- What a name means as a command. -/
def commandKind? (name : String) : Task (Option CommandKind) := do
  let s ← Task.shell
  if keywords.contains name then return some .keyword
  match s.aliases.lookup name, s.functions.any (·.1 = name), builtinKind? name with
  | some text, _, _ => return some (.alias text)
  | none, true, _ => return some .function
  | none, false, some special => return some (.builtin special)
  | none, false, none =>
    match ← programPlace? name with
    | some path => return some (.program path (s.remembered.contains name))
    | none => return none

/-- Describes what a name means, in words or by what would be carried out; its status. -/
def describe (inWords : Bool) (name : String) : Task Nat := do
  let kind ← commandKind? name
  match kind with
  | some (.program _ _) => rememberProgram name
  | _ => pure ()
  let words : String := match kind with
    | none => ": not found"
    | some .keyword => " is a shell keyword"
    | some (.alias text) => " is an alias for " ++ text
    | some .function => " is a shell function"
    | some (.builtin special) => " is a " ++ (if special then "special " else "") ++ "shell builtin"
    | some (.program path remembered) =>
      " is" ++ (if remembered then " a tracked alias for" else "") ++ " " ++ path
  let short : String := match kind with
    | none => ""
    | some (.alias text) => "alias " ++ name ++ "=" ++ quoted text ++ "\n"
    | some (.program path _) => path ++ "\n"
    | some _ => name ++ "\n"
  let _ ← Task.print (if inWords then name ++ words ++ "\n" else short).toList
  return if kind.isSome then 0 else 127

namespace Builtin

/-- Describes names. -/
def type : Builtin := fun names => do
  let mut status := 0
  for name in names do status := max status (← describe true name)
  return status

/-- Remembers where programs are, forgets all of them, or shows those that are remembered. -/
def hash : Builtin := fun args => do
  let (chosen, names) ← options "r" args
  if !chosen.isEmpty then
    Task.change ({ · with remembered := [] })
    return 0
  if names.isEmpty then
    let known ← (← Task.shell).remembered.mapM fun name => do
      return (name, (← programPlace? name).getD name)
    return ← Task.print ((inTable 31 known).flatMap fun (_, path) => (path ++ "\n").toList)
  let mut status := 0
  for name in names do
    if (← Task.shell).functions.any (·.1 = name) || (builtinKind? name).isSome then pure ()
    else if (← programPlace? name).isSome then rememberProgram name
    else
      Task.complain (name ++ ": not found")
      status := 1
  return status

end Builtin

end GoldenRun.Shell
