import GoldenRun.Shell.Builtin.Job
import GoldenRun.Shell.Builtin.Variable
import GoldenRun.Shell.Condition
import GoldenRun.Shell.Format

/-!
# The commands of the shell

`specialBuiltins` and `ordinaryBuiltins` are the commands that a shell carries out itself and that
need no further script.  A fault of a special one ends the shell.
-/

namespace GoldenRun.Shell

open GoldenRun.Text

namespace Builtin

/-- Writes its arguments. -/
def echo : Builtin := fun args => Task.print (echoText args)

/-- Writes its arguments in a format. -/
def printf : Builtin := fun args => do
  match ← operands args with
  | [] => Task.giveUp "usage: printf format [arg ...]"
  | format :: args =>
    let result := Format.write format args
    for c in result.complaints do Task.complain c
    match result.defect with
    | some defect =>
      Task.complain defect
      let _ ← Task.print result.text
      return 2
    | none =>
      let status ← Task.print result.text
      return if result.complaints.isEmpty then status else 1

/-- Asks whether a condition holds. -/
def test : Builtin := fun args => do
  let s ← Task.shell
  let m ← Task.machine
  let look (path : String) : Option Entry :=
    (m.disk.find s.cwd (ofUtf8Octets path)).toOption.map (·.2)
  match Condition.holds look args with
  | .ok b => return if b then 0 else 1
  | .error fault => Task.giveUp fault.message

/-- Asks whether the condition in brackets holds. -/
def bracket : Builtin := fun args =>
  if args.getLast? = some "]" then test args.dropLast else Task.giveUp "missing ]"

/-- Writes the directory. -/
def pwd : Builtin := fun args => do
  let _ ← options "LP" args
  Task.print ((octets (← Task.shell).cwd.path).toList ++ ['\n'])

/-- Whether a path says where it begins, so that it is not looked for. -/
def isRooted (path : String) : Bool :=
  path.startsWith "/" || path = "." || path = ".." || path.startsWith "./" || path.startsWith "../"

/-- The directories that a path can mean for `cd`, each with whether it has to be told. -/
def directories (s : State) (path : String) : List (String × Bool) :=
  let places := if isRooted path then [] else ((s.value? "CDPATH").getD "").splitOn ":"
  (places.map fun place => if place = "" then (path, false) else (place ++ "/" ++ path, true)) ++
    [(path, false)]

/-- Goes to a directory. -/
def cd : Builtin := fun args => do
  let (_, args) ← options "LP" args
  let s ← Task.shell
  let disk := (← Task.machine).disk
  let (target, told) := match args with
    | [] => ((s.value? "HOME").getD "", false)
    | "-" :: _ => ((s.value? "OLDPWD").getD "", true)
    | path :: _ => (path, false)
  let found := (directories s (if target = "" then "." else target)).findSome? fun (path, shown) =>
    match disk.find s.cwd (ofUtf8Octets path) with
    | .ok (location, .directory) => some (location, shown)
    | _ => none
  match found with
  | none => Task.giveUp ("can't cd to " ++ target)
  | some (location, shown) =>
    Task.change ({ · with cwd := location })
    for (name, place) in [("OLDPWD", s.cwd), ("PWD", location)] do
      Task.assign name (octets place.path)
      Task.change fun s => s.setVariable name (some { s.slot name with exported := true })
    if told || shown then Task.print ((octets location.path).toList ++ ['\n']) else return 0

/-- Shows or changes the permissions that new files do not get. -/
def umask : Builtin := fun args => do
  let (chosen, args) ← options "S" args
  let mask := (← Task.shell).mask
  match args with
  | [] => Task.print ((if chosen.isEmpty then mask.octal else mask.letters) ++ "\n").toList
  | text :: _ =>
    let byDigits := text.toList.head?.any Char.isDigit
    match if byDigits then Mask.ofOctal? text.toList else mask.change? text.toList with
    | some mask =>
      Task.change ({ · with mask })
      return 0
    | none => Task.giveUp ((if byDigits then "Illegal number: " else "Illegal mode: ") ++ text)

/-- Shows limits; there are none to speak of. -/
def ulimit : Builtin := fun args => do
  let (_, args) ← options "HSatfdscmlpnvwr" args
  if args.isEmpty then Task.print "unlimited\n".toList else return 0

/-- Ends the shell. -/
def exit : Builtin := fun args => do throw (.exit ((← statusArgument args) % 256))

/-- Ends a function. -/
def return_ : Builtin := fun args => do throw (.leaveFunction (← statusArgument args))

/-- Leaves loops, or begins their next round. -/
def leave (stop : Nat → Stop) : Builtin := fun args => do
  let depth ← match args with
    | [] => pure 1
    | text :: _ => Task.number text
  if depth = 0 then Task.giveUp "Illegal number: 0"
  let loops := (← Task.shell).loops
  Task.setStatus 0
  if loops = 0 then return 0 else throw (stop (min depth loops))

/-- Drops arguments. -/
def shift : Builtin := fun args => do
  let n ← match args with
    | [] => pure 1
    | text :: _ => Task.number text
  let s ← Task.shell
  if s.args.length < n then Task.giveUp "can't shift that many"
  replaceArguments (s.args.drop n)
  return 0

/-- Gives texts names, or shows those that have one. -/
def alias_ : Builtin := fun args => do
  let line (name value : String) : List Char := (name ++ "=" ++ quoted value ++ "\n").toList
  if args.isEmpty then
    let entries := inTable 39 (← Task.shell).aliases
    return ← Task.print (entries.flatMap fun (name, value) => line name value)
  let mut status := 0
  for text in args do
    let name := text.toList.take 1 ++ (text.toList.drop 1).takeWhile (· ≠ '=')
    match text.toList.drop name.length with
    | _ :: value =>
      let entry := (String.ofList name, String.ofList value)
      Task.change fun s =>
        { s with aliases :=
            if s.aliases.any (·.1 = entry.1) then
              s.aliases.map fun old => if old.1 = entry.1 then entry else old
            else s.aliases ++ [entry] }
    | [] =>
      match (← Task.shell).aliases.lookup text with
      | some value => let _ ← Task.print (line text value)
      | none =>
        let _ ← Task.write 2 ("alias: " ++ text ++ " not found\n").toList
        status := 1
  return status

/-- Takes names of texts away. -/
def unalias : Builtin := fun args => do
  let (chosen, names) ← options "a" args
  if !chosen.isEmpty then
    Task.change ({ · with aliases := [] })
    return 0
  let mut status := 0
  for name in names do
    if (← Task.shell).aliases.any (·.1 = name) then
      Task.change fun s => { s with aliases := s.aliases.filter (·.1 ≠ name) }
    else
      let _ ← Task.write 2 ("unalias: " ++ name ++ " not found\n").toList
      status := 1
  return status

end Builtin

/-- The special commands. -/
def specialBuiltins : List (String × Builtin) :=
  [(":", fun _ => return 0), ("exit", Builtin.exit), ("return", Builtin.return_),
    ("break", Builtin.leave .leaveLoop), ("continue", Builtin.leave .nextRound),
    ("shift", Builtin.shift), ("set", Builtin.set), ("unset", Builtin.unset),
    ("export", Builtin.declare "export" ({ · with exported := true })),
    ("readonly", Builtin.declare "readonly" ({ · with fixed := true })), ("trap", Builtin.trap),
    ("local", Builtin.local_), ("times", Builtin.times)]

/-- The other commands. -/
def ordinaryBuiltins : List (String × Builtin) :=
  [("true", fun _ => return 0), ("false", fun _ => return 1), ("echo", Builtin.echo),
    ("printf", Builtin.printf), ("test", Builtin.test), ("[", Builtin.bracket),
    ("pwd", Builtin.pwd), ("cd", Builtin.cd), ("chdir", Builtin.cd), ("read", Builtin.read),
    ("getopts", Builtin.getopts), ("wait", Builtin.wait), ("jobs", Builtin.jobs),
    ("fg", Builtin.resume), ("bg", Builtin.resume), ("kill", Builtin.kill),
    ("umask", Builtin.umask), ("ulimit", Builtin.ulimit), ("alias", Builtin.alias_),
    ("unalias", Builtin.unalias)]

end GoldenRun.Shell
