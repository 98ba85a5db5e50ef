import GoldenRun.Shell.Builtin

/-!
# Utilities

The programs apart from the shell that a machine knows: they wait, and they write out files and
texts.
-/

namespace GoldenRun.Shell

open GoldenRun.Text

namespace Utility

/-- Complains in the name of a program. -/
def complain (name message : String) : Task Unit := do
  let _ ← Task.write 2 (name ++ ": " ++ message ++ "\n").toList

/-- The seconds in the unit that ends a duration. -/
def unit? : List Char → Option Nat
  | [] | ['s'] => some 1
  | ['m'] => some 60
  | ['h'] => some 3600
  | ['d'] => some 86400
  | _ => none

/-- The microseconds of a duration; none inside is forever. -/
def duration? (text : String) : Option (Option Nat) :=
  if ["inf", "infinity"].contains text.toLower then some none
  else
    let s := text.toList
    let whole := s.takeWhile Char.isDigit
    let rest := s.drop whole.length
    let (fraction, rest) := match rest with
      | '.' :: r => (r.takeWhile Char.isDigit, r.dropWhile Char.isDigit)
      | r => ([], r)
    if whole = [] && fraction = [] then none
    else
      let digits := (fraction.take 6) ++ List.replicate (6 - fraction.length) '0'
      let micro := (Arithmetic.digits 10 0 (whole ++ digits)).1
      (unit? rest).map fun unit => some (micro * unit)

/-- What a program adds to a complaint about its arguments. -/
def hint (name : String) : String := "Try '" ++ name ++ " --help' for more information.\n"

/-- The complaint about the first argument that is an option, if it is none of those that a program
knows. -/
def badOption? (known : List String) (args : List String) : Option String :=
  let options := (args.takeWhile (· ≠ "--")).filter fun a => a.startsWith "-" && a ≠ "-"
  (options.find? (!known.contains ·)).map fun o =>
    if o.startsWith "--" then "unrecognized option '" ++ o ++ "'"
    else "invalid option -- '" ++ String.ofList ((o.toList.drop 1).take 1) ++ "'"

/-- Complains about arguments and says where help is to be found. -/
def refuse (name : String) (messages : List String) : Task Nat := do
  for m in messages do complain name m
  let _ ← Task.write 2 (hint name).toList
  return 1

/-- Arguments without options. -/
def operands (args : List String) : List String :=
  let before := args.takeWhile (· ≠ "--")
  before.filter (fun a => !a.startsWith "-" || a = "-") ++ (args.drop before.length).drop 1

/-- Waits. -/
def sleep (name : String) (args : List String) : Task Nat := do
  match badOption? [] args with
  | some message => refuse name [message]
  | none =>
    let args := operands args
    let durations := args.map duration?
    let bad := (args.zip durations).filter (·.2.isNone)
    if args.isEmpty then refuse name ["missing operand"]
    else if !bad.isEmpty then
      refuse name (bad.map fun (text, _) => "invalid time interval '" ++ text ++ "'")
    else
      match (durations.filterMap id).mapM id with
      | some all => Task.pause (all.foldl (· + ·) 0)
      | none => Task.waitUntil none
      return 0

/-- Whether a path leads to the file to which the ordinary output goes, and that file holds
something. -/
def isOwnOutput (path : String) : Task Bool := do
  match ← Task.channel? 1, (← Task.machine).disk.find (← Task.shell).cwd (ofUtf8Octets path) with
  | some (.file output), .ok (input, .file (_ :: _) _) => return output = input
  | _, _ => return false

/-- Writes out one file, or what can be read; whether that was possible. -/
def catOne (name path : String) : Task Bool := do
  if path ≠ "-" && (← isOwnOutput path) then
    complain name (path ++ ": input file is output file")
    return false
  let isOpen := (← Task.channel? 1).isSome
  let copyOut (bytes : Bytes) : Task Unit := do
    let _ ← Task.write 1 (ofOctets bytes).toList
  if path = "-" then return (← Task.readAll 0 copyOut) && isOpen
  match ← Task.openFile .read path with
  | .ok (.buffer n) =>
    copyOut ((← Task.machine).bufferBytes n)
    return isOpen
  | .ok _ =>
    if path.startsWith "/dev/" then return true
    complain name (path ++ ": Is a directory")
    return false
  | .error reason =>
    let reason := if reason = "No such file" then reason ++ " or directory" else reason
    complain name (path ++ ": " ++ reason)
    return false

/-- Writes out files. -/
def cat (name : String) (args : List String) : Task Nat := do
  match badOption? ["-u"] args with
  | some message => refuse name [message]
  | none =>
    let files := operands args
    let mut status := 0
    for path in (if files.isEmpty then ["-"] else files) do
      if !(← catOne name path) then status := 1
    return status

/-- Writes its arguments; escapes are read only if that is asked for. -/
def echo (args : List String) : Task Nat := do
  let isOption (a : String) : Bool :=
    a.startsWith "-" && a ≠ "-" && (a.toList.drop 1).all fun c => c = 'n' || c = 'e' || c = 'E'
  let letters := (args.takeWhile isOption).flatMap String.toList
  let line := (" ".intercalate (args.dropWhile isOption)).toList
  let escapes := (letters.filter fun c => c = 'e' || c = 'E').getLast? = some 'e'
  let (text, ends) := if escapes then unescape line else (line, false)
  Task.print (if letters.contains 'n' || ends then text else text ++ ['\n'])

end Utility

end GoldenRun.Shell
