import GoldenRun.Machine.Basic
import GoldenRun.Text.Split

/-!
# Programs on a disk

A file can be run when it is marked as executable and its bytes are the image of a utility, or name
an interpreter in their first line.  A file that is neither can still be run as a script of the
shell by those who look for programs.

A program without a slash in its name is looked for in the directories of a search path, one after
the other.  One that may not be run is passed over, but remembered.
-/

namespace GoldenRun

open GoldenRun.Text

/-- The programs that a machine knows. -/
inductive Utility where
  /-- The shell. -/
  | shell
  /-- Waits. -/
  | sleep
  /-- Writes out what it reads. -/
  | cat
  /-- Writes its arguments. -/
  | echo
  /-- Writes its directory. -/
  | pwd
  /-- Does nothing, successfully. -/
  | succeed
  /-- Does nothing, unsuccessfully. -/
  | fail
  deriving DecidableEq, Repr

namespace Utility

/-- All utilities. -/
def all : List Utility := [.shell, .sleep, .cat, .echo, .pwd, .succeed, .fail]

/-- The file name of a utility. -/
def fileName : Utility → String
  | .shell => "sh"
  | .sleep => "sleep"
  | .cat => "cat"
  | .echo => "echo"
  | .pwd => "pwd"
  | .succeed => "true"
  | .fail => "false"

/-- The bytes of a utility. -/
def image (u : Utility) : Bytes := 0x7F :: encode ("ELF" ++ u.fileName)

/-- The utility with the given bytes. -/
def ofImage? (bytes : Bytes) : Option Utility := all.find? (·.image = bytes)

/-- A disk with all utilities in a directory. -/
def installAll (directory : Location) (disk : Disk) : Disk :=
  all.foldl (fun d u => d.install (directory ++ [u.fileName]) (.file u.image true)) disk

end Utility

/-- Why a program cannot be run. -/
inductive LaunchFault where
  /-- Its file cannot be had. -/
  | file (fault : DiskFault)
  /-- Its file is no program. -/
  | badFormat
  /-- One interpreter is interpreted by another, and so on. -/
  | tooDeep
  deriving DecidableEq, Repr

namespace LaunchFault

/-- The short code of a fault. -/
def code : LaunchFault → String
  | .file fault => fault.code
  | .badFormat => "ENOEXEC"
  | .tooDeep => "ELOOP"

end LaunchFault

/-- A program that is ready to run. -/
structure Launch where
  /-- The utility that carries it out. -/
  utility : Utility
  /-- Its arguments, the name under which it runs in front. -/
  args : List String
  deriving DecidableEq, Repr

namespace Launch

/-- Whether a character is a blank of the first line of a script. -/
def isBlank (c : Char) : Bool := c = ' ' || c = '\t'

/-- The interpreter that the first line of a script names, and the one argument that it may
give. -/
def interpreter? (script : List Char) : Option (String × List String) :=
  match script with
  | '#' :: '!' :: rest =>
    let line := (rest.takeWhile fun c => c ≠ '\n' && c ≠ '\x00').dropWhile isBlank
    let line := (line.reverse.dropWhile isBlank).reverse
    let (name, after) := line.span (!isBlank ·)
    let arg := after.dropWhile isBlank
    if name = [] then none
    else some (String.ofList name, if arg = [] then [] else [String.ofList arg])
  | _ => none

/-- How often the interpreter of a script may be a script itself. -/
def interpreterDepth : Nat := 5

/-- The bytes of a file that may be run. -/
def executable (disk : Disk) (cwd : Location) (path : String) : Except LaunchFault Bytes :=
  match disk.find cwd (ofUtf8Octets path) with
  | .ok (_, .file bytes true) => .ok bytes
  | .ok _ => .error (.file .accessDenied)
  | .error fault => .error (.file fault)

/-- The program in a file, with the arguments `args` behind its name. -/
def load (disk : Disk) (cwd : Location) (path : String) :
    Nat → String → List String → Except LaunchFault Launch
  | 0, _, _ => .error .tooDeep
  | depth + 1, name, args => do
    let bytes ← executable disk cwd path
    match Utility.ofImage? bytes with
    | some utility => return ⟨utility, name :: args⟩
    | none =>
      match interpreter? (ofOctets bytes).toList with
      | some (interpreter, arg) =>
        load disk cwd interpreter depth interpreter (arg ++ path :: args)
      | none => .error .badFormat

/-- The shell that reads files that are no programs. -/
def scriptShell : String := "/bin/sh"

/-- The program in a file, or the shell that reads it. -/
def loadOrRead (disk : Disk) (cwd : Location) (path name : String) (args : List String) :
    Except LaunchFault Launch :=
  match load disk cwd path interpreterDepth name args with
  | .error .badFormat =>
    load disk cwd scriptShell interpreterDepth scriptShell (path :: args)
  | r => r

/-- The paths at which a program may be found. -/
def candidates (searchPath command : String) : List String :=
  if command.toList.contains '/' then [command]
  else (splitString ':' searchPath).map fun directory =>
    if directory = "" then command else directory ++ "/" ++ command

/-- The fault that is reported for several places, when one was met after another: that a program
may not be run is said before all else. -/
def laterFault (earlier later : DiskFault) : DiskFault :=
  if earlier = .accessDenied then earlier else later

/-- The first program that can be run, of those at some paths; places where there is none, or none
that may be run, are passed over. -/
def first (disk : Disk) (cwd : Location) (name : String) (args : List String) :
    DiskFault → List String → Except LaunchFault Launch
  | fault, [] => .error (.file fault)
  | fault, path :: paths =>
    match loadOrRead disk cwd path name args with
    | .error (.file later) =>
      if [.accessDenied, .notFound, .notDirectory].contains later then
        first disk cwd name args (laterFault fault later) paths
      else .error (.file later)
    | r => r

/-- The search path of a program that is not given one. -/
def defaultSearchPath : String := "/bin:/usr/bin"

/-- The program that a command means. -/
def find (disk : Disk) (cwd : Location) (searchPath command : String) (args : List String) :
    Except LaunchFault Launch :=
  if command.toList.contains '/' then loadOrRead disk cwd command command args
  else first disk cwd command args .notFound (candidates searchPath command)

end Launch

end GoldenRun
