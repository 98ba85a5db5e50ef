import GoldenRun.Association
import GoldenRun.Number.Binary64
import GoldenRun.Text.Inspected

/-!
# Commands to run and what they answer

A `Request` is one command to run; a `Captured` is what came of it: everything it wrote, merged in
order of arrival, and how it ended.  Only one ending is a success: exit code 0, before any time
limit, of a command that did start.
-/

namespace GoldenRun

open GoldenRun.Number GoldenRun.Text

/-- Environment variables, each once. -/
abbrev Environment := List (String × String)

namespace Environment

/-- The value of a variable. -/
def get? (env : Environment) (name : String) : Option String :=
  (env.find? (·.1 = name)).map (·.2)

/-- The environment with a variable set; one that is there already keeps its place. -/
def set (env : Environment) (name value : String) : Environment :=
  if env.any (·.1 = name) then env.map fun v => if v.1 = name then (name, value) else v
  else env ++ [(name, value)]

/-- A variable that is set has the new value, and no other variable changes. -/
theorem get?_set (env : Environment) (name value other : String) :
    (env.set name value).get? other = if other = name then some value else env.get? other := by
  unfold set get?
  split
  · next hthere =>
    by_cases hsame : other = name
    · subst hsame
      rw [find?_replaced_self hthere, if_pos rfl]
      rfl
    · rw [find?_replaced env hsame, if_neg hsame]
  · next hnone =>
    rw [find?_added hnone, apply_ite (Option.map _)]
    rfl

/-- The environment with one more directory at the end of the search path.  The path that is
there stays in front; an empty or missing one becomes the directory alone. -/
def appendToPath (env : Environment) (directory : String) : Environment :=
  env.set "PATH" <|
    match env.get? "PATH" with
    | some current => if current = "" then directory else current ++ ":" ++ directory
    | none => directory

/-- The search path that is there stays in front, and the directory comes last. -/
theorem get?_appendToPath (env : Environment) (directory : String) :
    (env.appendToPath directory).get? "PATH" = some (match env.get? "PATH" with
      | some current => if current = "" then directory else current ++ ":" ++ directory
      | none => directory) := by
  rw [appendToPath, get?_set, if_pos rfl]

/-- Only the search path changes. -/
theorem get?_appendToPath_of_ne (env : Environment) (directory : String) {other : String}
    (h : other ≠ "PATH") : (env.appendToPath directory).get? other = env.get? other := by
  rw [appendToPath, get?_set, if_neg h]

end Environment

/-- One command to run. -/
structure Request where
  /-- The program. -/
  command : String
  /-- Its arguments. -/
  args : List String
  /-- The directory to run it in. -/
  cwd : String
  /-- Its environment; without one it takes that of the harness. -/
  env : Option Environment := none
  /-- The milliseconds after which it is killed; none, or zero, is no limit. -/
  timeout : Option Binary64 := none
  deriving DecidableEq, Repr

/-- Why a request is refused before anything is started. -/
inductive RequestFault where
  /-- It names no program. -/
  | noCommand
  /-- A text in it holds the character NUL. -/
  | nul (place : String) (isProperty : Bool) (kind text : String)
  /-- The machine cannot start programs so. -/
  | machine (code : String)
  deriving DecidableEq, Repr

namespace RequestFault

/-- The short code of a fault. -/
def code : RequestFault → String
  | .machine code => code
  | _ => "ERR_INVALID_ARG_VALUE"

/-- The message of a fault. -/
def message : RequestFault → String
  | .noCommand => "The argument 'file' cannot be empty. Received ''"
  | .nul place isProperty kind text =>
    "The " ++ (if isProperty then "property" else "argument") ++ " '" ++ place ++ "' must be " ++
      kind ++ " without null bytes. Received " ++ inspected text
  | .machine code => "spawn " ++ code

end RequestFault

namespace Request

/-- A fault if a text holds the character NUL. -/
def nulFault? (place : String) (isProperty : Bool) (kind text : String) : Option RequestFault :=
  if text.toList.contains '\x00' then some (.nul place isProperty kind text) else none

/-- What is wrong with a request: the first fault of its program, its arguments, its directory and
its environment, in this order. -/
def fault? (request : Request) (env : Environment) : Option RequestFault :=
  let plain := "a string"
  let command := (nulFault? "file" false plain request.command).orElse fun _ =>
    if request.command = "" then some .noCommand else none
  let args := request.args.zipIdx.findSome? fun (a, i) =>
    nulFault? ("args[" ++ toString i ++ "]") false plain a
  let directory := nulFault? "options.cwd" true "a string, Uint8Array, or URL" request.cwd
  let settings := env.findSome? fun (name, value) =>
    let place := "options.env['" ++ name ++ "']"
    (nulFault? place true plain name).orElse fun _ => nulFault? place true plain value
  ((command.orElse fun _ => args).orElse fun _ => directory).orElse fun _ => settings

end Request

/-- What a command wrote and how it ended. -/
structure Captured where
  /-- Both output streams, in order of arrival. -/
  text : String := ""
  /-- The exit code, unless the command was killed or did not start. -/
  exitCode : Option Int := some 0
  /-- The signal that ended it. -/
  signal : Option String := none
  /-- Whether it ran into its time limit. -/
  timedOut : Bool := false
  /-- Why it could not be started. -/
  error : Option String := none
  deriving DecidableEq, Repr, Inhabited

namespace Captured

/-- Whether the command started and exited with code 0 in time. -/
def succeeded (output : Captured) : Bool :=
  output.exitCode = some 0 && !output.timedOut && output.error.isNone

/-- A text that is there and not empty. -/
def nonempty? : Option String → Option String
  | some s => if s = "" then none else some s
  | none => none

/-- How the command ended, in a few words. -/
def describe (output : Captured) : String :=
  match nonempty? output.error with
  | some reason => reason
  | none =>
    if output.timedOut then "timed out"
    else match nonempty? output.signal with
      | some signal => "killed by " ++ signal
      | none => "exit code " ++ (output.exitCode.elim "null" toString)

end Captured

end GoldenRun
