import GoldenRun.Disk.Operations
import GoldenRun.Execution.Basic
import GoldenRun.Machine.Image
import GoldenRun.Shell.Cursor
import GoldenRun.Shell.Field
import GoldenRun.Shell.Mask
import GoldenRun.Shell.Option
import GoldenRun.Shell.OptionScan
import GoldenRun.Shell.SignalName

/-!
# The state of a shell

A shell has parameters, functions, descriptors and a status.  A `Task` works on a shell and the
machine on which it runs, and can be stopped: by the shell's end, by the end of a loop or function
that it is inside of, or because the machine stops.

A child works on a copy of the shell.  It begins at the time of its parent and has a clock of its
own; `join` waits for it.
-/

namespace GoldenRun.Shell

open GoldenRun.Text

/-- A variable. -/
structure Variable where
  /-- Its value. -/
  value : Option String := none
  /-- Whether programs get to know it. -/
  exported : Bool := false
  /-- Whether it cannot be changed. -/
  fixed : Bool := false
  deriving DecidableEq, Repr, Inhabited

/-- A command in the background that a shell has started, as the shell counts it. -/
structure Job where
  /-- Its number among the jobs. -/
  number : Nat
  /-- The number of its last program. -/
  program : Nat
  /-- How many programs it consists of. -/
  stages : Nat
  /-- Whether it has been waited for. -/
  awaited : Bool := false
  deriving DecidableEq, Repr, Inhabited

/-- A shell. -/
structure State where
  /-- Its name. -/
  name : String
  /-- Its arguments. -/
  args : List String := []
  /-- Its variables. -/
  bindings : List (String × Variable) := []
  /-- The variables that a running function hides, a list for each call. -/
  hidden : List (List (String × Option Variable)) := []
  /-- Its functions. -/
  functions : List (String × Command) := []
  /-- Its directory. -/
  cwd : Location
  /-- Its descriptors. -/
  descriptors : List (Nat × Channel)
  /-- The status of the last command. -/
  status : Nat := 0
  /-- Its number. -/
  number : Nat
  /-- The number of the shell of which it is a copy. -/
  mainNumber : Nat
  /-- The number of the last command in the background. -/
  lastJob : Option Nat := none
  /-- The commands in the background, the latest in front. -/
  jobs : List Job := []
  /-- The line of the script. -/
  line : Nat := 1
  /-- In whose name it complains, if not in its own alone. -/
  speaker : Option String := none
  /-- Its options. -/
  options : Options := []
  /-- The options that running functions put back, one entry for each call. -/
  hiddenOptions : List (Option Options) := []
  /-- The permissions that new files do not get. -/
  mask : Mask := {}
  /-- How far the options of its arguments have been gone through. -/
  scan : OptionScan := {}
  /-- Its aliases, the latest last. -/
  aliases : List (String × String) := []
  /-- The programs whose place it remembers, the latest last. -/
  remembered : List String := []
  /-- What it does on a signal, or at its end; nothing at all if the script is empty. -/
  traps : List (String × String) := []
  /-- The signals that have arrived and ask for something to be done. -/
  arrived : List Signal := []
  /-- The signals that it never cares about. -/
  deaf : List Signal := []
  /-- When it has last waited for a program. -/
  waited : Nat := 0
  /-- Whether a failure is being looked for. -/
  guarded : Bool := false
  /-- How many loops are running. -/
  loops : Nat := 0
  /-- The status of the last script whose output was taken. -/
  outputStatus : Nat := 0

namespace State

/-- The value of a variable. -/
def value? (s : State) (name : String) : Option String :=
  ((s.bindings.find? (·.1 = name)).map (·.2)).bind (·.value)

/-- The state with another variable of a name, or with none. -/
def setVariable (s : State) (name : String) (v : Option Variable) : State :=
  let others := s.bindings.filter (·.1 ≠ name)
  { s with bindings := v.elim others fun v => (name, v) :: others }

/-- The variable of a name; where there is none, one without a value. -/
def slot (s : State) (name : String) : Variable :=
  ((s.bindings.find? (·.1 = name)).map (·.2)).getD {}

/-- The signals that the shell does not care about. -/
def ignored (s : State) : List Signal :=
  s.deaf ++ ((List.range Signal.count).map (⟨·⟩ : Nat → Signal)).filter fun signal =>
    s.traps.contains (signal.word, "")

/-- Whether an option is on. -/
def has (s : State) (option : ShellOption) : Bool := s.options.contains option

/-- The lowest number that no job has which may be needed any more, and the state without the job
of that number. -/
def claimJob (s : State) : Nat × State :=
  let isTaken (n : Nat) : Bool := s.jobs.any fun job => job.number = n && !job.awaited
  let n := ((List.range (s.jobs.length + 1)).map (· + 1)).find? (!isTaken ·)
  let n := n.getD (s.jobs.length + 1)
  (n, { s with jobs := s.jobs.filter (·.number ≠ n) })

/-- The separators of fields. -/
def separators (s : State) : Separators := (s.value? "IFS").elim .default .ofText

/-- What stands between arguments that are joined. -/
def joint (s : State) : List Char := ((s.value? "IFS").getD " \t\n").toList.take 1

/-- The value of a parameter. -/
def parameter? (s : State) (name : String) : Option String :=
  match name with
  | "#" => some (toString s.args.length)
  | "?" => some (toString s.status)
  | "$" => some (toString s.mainNumber)
  | "!" => s.lastJob.map toString
  | "-" => some s.options.letters
  | "0" => some s.name
  | _ =>
    if name.toList.all Char.isDigit then
      match name.toNat? with
      | some (n + 1) => s.args[n]?
      | _ => some s.name
    else s.value? name

/-- The environment of the programs that the shell starts. -/
def environment (s : State) : Environment :=
  s.bindings.reverse.filterMap fun (name, v) =>
    if v.exported then v.value.map fun value => (name, value) else none

/-- The search path where the environment has none. -/
def defaultPath : String := "/usr/local/sbin:/usr/local/bin:/usr/sbin:/usr/bin:/sbin:/bin"

/-- The variables of every shell, unless its environment says otherwise; `parent` is the number of
the program that has started it. -/
def ownVariables (parent : Nat) : List (String × String) :=
  [("PATH", defaultPath), ("OPTIND", "1"), ("PPID", toString parent), ("PS1", "# "),
    ("PS2", "> "), ("PS4", "+ ")]

/-- The shell that starts in an environment. -/
def initial (name : String) (env : Environment) (cwd : Location)
    (descriptors : List (Nat × Channel)) (parent number : Nat) (mask : Mask) : State :=
  let given := (env.filter fun v => isName v.1.toList).map fun (k, v) =>
    (k, ({ value := some v, exported := true } : Variable))
  let own := ((ownVariables parent).filter fun v => !given.any (·.1 = v.1)).map fun (k, v) =>
    (k, ({ value := some v } : Variable))
  let s : State :=
    { name, cwd, descriptors, number, mainNumber := number, bindings := given.reverse ++ own, mask }
  (s.setVariable "PWD" (some { value := some (octets cwd.path), exported := true })).setVariable
    "IFS" (some { value := some " \t\n" })

end State

/-- Why a task is stopped. -/
inductive Stop where
  /-- The shell ends. -/
  | exit (status : Nat)
  /-- A command gives up, after it has complained. -/
  | failed
  /-- The program with the given number is killed. -/
  | killed (number : Nat) (signal : Signal)
  /-- The machine stops. -/
  | expired
  /-- A number of loops end. -/
  | leaveLoop (depth : Nat)
  /-- A number of loops but one end, and that one goes on. -/
  | nextRound (depth : Nat)
  /-- A function ends. -/
  | leaveFunction (status : Nat)
  deriving DecidableEq, Repr

/-- A machine and a shell that runs on it. -/
structure Session where
  /-- The machine. -/
  machine : Machine
  /-- The shell. -/
  shell : State

/-- A piece of work of a shell. -/
abbrev Task (α : Type) := ExceptT Stop (StateM Session) α

namespace Task

/-- The shell. -/
def shell : Task State := return (← get).shell

/-- The machine. -/
def machine : Task Machine := return (← get).machine

/-- Changes the shell. -/
def change (f : State → State) : Task Unit := modify fun s => { s with shell := f s.shell }

/-- Changes the machine. -/
def operate (f : Machine → Machine) : Task Unit := modify fun s => { s with machine := f s.machine }

/-- Changes the machine, or stops with it. -/
def operate? (f : Machine → Option Machine) : Task Unit := do
  match f (← machine) with
  | some m => operate fun _ => m
  | none => throw .expired

/-- Receives a signal: the shell keeps in mind what it is to do then, or is killed.  Whether there
is something to do. -/
def receive (signal : Signal) : Task Bool := do
  let s ← shell
  let action := if s.deaf.contains signal then some ""
    else (s.traps.find? (·.1 = signal.word)).map (·.2)
  match (if signal = Signal.kill then none else action) with
  | some action =>
    if action = "" then return false
    change fun s => { s with arrived := signal :: s.arrived.filter (· ≠ signal) }
    return true
  | none =>
    if signal.stops then throw .expired
    if !signal.isHarmless then throw (.killed s.number signal)
    return false

/-- Receives a signal that was on its way, at its time. -/
def meet (sent : SentSignal) : Task Bool := do
  operate? (·.advanceTo sent.time)
  operate fun m => { m with sent := m.sent.erase sent }
  receive sent.signal

/-- The signals that reach the shell up to a moment. -/
def signalsUntil (time : Option Nat) : Task (List SentSignal) := do
  return (← machine).signalsUntil (← shell).number time

/-- The shell calls itself too often: it has no room for that and is killed. -/
def overflow {α : Type} : Task α := do throw (.killed (← shell).number .badAccess)

/-- Goes on to a moment; never comes back if there is none. -/
def reach (time : Option Nat) : Task Unit :=
  match time with
  | some t => operate? (·.advanceTo t)
  | none => throw .expired

/-- Waits until a moment, whatever comes before; an interrupt is received only then. -/
def waitUntil (time : Option Nat) : Task Unit := do
  let (late, early) := (← signalsUntil time).partition (·.signal = Signal.interrupt)
  for sent in early do
    let _ ← meet sent
  reach time
  for sent in late do
    let _ ← meet sent

/-- Waits until a moment, or until a signal comes that asks for something to be done; that signal.
The end of a child is no such signal. -/
def waitOrMeet (time : Option Nat) : Task (Option Signal) := do
  for sent in ← signalsUntil time do
    if (← meet sent) && sent.signal ≠ Signal.childEnded then return some sent.signal
  reach time
  return none

/-- Makes one step. -/
def tick : Task Unit := do
  operate? Machine.tick
  waitUntil (some (← machine).clock)

/-- Waits for some microseconds. -/
def pause (duration : Nat) : Task Unit := do waitUntil (some ((← machine).clock + duration))

/-- Sets the status. -/
def setStatus (status : Nat) : Task Unit := change ({ · with status })

/-! ## Descriptors -/

/-- Where a descriptor leads. -/
def channel? (descriptor : Nat) : Task (Option Channel) := do
  return ((← shell).descriptors.find? (·.1 = descriptor)).map (·.2)

/-- Writes octets to a channel; whether there is one. -/
def writeTo (channel : Option Channel) (text : List Char) : Task Bool := do
  match channel with
  | some channel =>
    if text ≠ [] then operate (·.write channel (toOctets (String.ofList text)))
    return true
  | none => return false

/-- Writes octets to a descriptor; whether it is open. -/
def write (descriptor : Nat) (text : List Char) : Task Bool := do
  writeTo (← channel? descriptor) text

/-- Writes to the ordinary output; the status that this gives. -/
def print (text : List Char) : Task Nat := do return if ← write 1 text then 0 else 1

/-- Complains, in the name of the shell and of the command that is being carried out. -/
def complain (message : String) : Task Unit := do
  let s ← shell
  let speaker := s.speaker.elim "" (· ++ ": ")
  let _ ← write 2 (s.name ++ ": " ++ toString s.line ++ ": " ++ speaker ++ message ++ "\n").toList

/-- The status of a command that gives up. -/
def failedStatus : Nat := 2

/-- Complains and gives up. -/
def giveUp {α : Type} (message : String) : Task α := do
  complain message
  throw .failed

/-- All that can be read from a descriptor, once it is there; each piece is handed over at its time.
Whether the descriptor is open. -/
def readAll (descriptor : Nat) (take : Bytes → Task Unit) : Task Bool := do
  match ← channel? descriptor with
  | none => return false
  | some channel =>
    let (pieces, ready) := (← machine).readable channel
    for piece in pieces do
      waitUntil (some piece.time)
      take piece.bytes
    waitUntil ready
    operate (·.leave channel [])
    return true

/-- The next line that can be read from a descriptor, and whether it is a whole one. -/
def readLine (descriptor : Nat) : Task (Option (List Char × Bool)) := do
  match ← channel? descriptor with
  | none => return none
  | some channel =>
    let (pieces, ready) := (← machine).readable channel
    let whole := Written.lineTime? pieces
    waitUntil (if whole.isSome then whole else ready)
    let line := (pieces.flatMap (·.bytes)).takeWhile (· ≠ 10)
    operate (·.leave channel (Written.drop (line.length + 1) pieces))
    return some ((ofOctets line).toList, whole.isSome)

/-! ## Variables -/

/-- The number that a text writes: digits, perhaps with a plus sign before and blanks around. -/
def number? (text : String) : Option Nat :=
  let isBlank (c : Char) : Bool := " \t\n\r\x0b\x0c".toList.contains c
  let body := ((text.toList.dropWhile isBlank).reverse.dropWhile isBlank).reverse
  let digits := if body.head? = some '+' then body.drop 1 else body
  if digits ≠ [] && digits.all Char.isDigit then
    let n := digits.foldl (fun n c => n * 10 + (c.toNat - 0x30)) 0
    if n < 0x80000000 then some n else none
  else none

/-- The number that a text writes; anything else makes the command give up. -/
def number (text : String) : Task Nat :=
  match number? text with
  | some n => return n
  | none => giveUp ("Illegal number: " ++ text)

/-- Does what belongs to a change of a variable: a new search path makes the shell forget where
programs are, and a new place for options makes it begin there. -/
def attend (name : String) (value : Option String) : Task Unit := do
  if name = "PATH" then change ({ · with remembered := [] })
  if name = "OPTIND" then
    let n ← number (value.getD "")
    change ({ · with scan := ⟨max n 1, none⟩ })

/-- Gives a variable a value. -/
def assign (name value : String) : Task Unit := do
  let s ← shell
  let v := s.slot name
  if v.fixed then giveUp (name ++ ": is read only")
  let exported := v.exported || s.has .exportAll
  change (·.setVariable name (some { v with value := some value, exported }))
  attend name (some value)

/-! ## Children -/

/-- How a child ends whose task has come to its end or was stopped, if that stops nobody else. -/
def endingOf (number : Nat) (status : Nat) : Except Stop Unit → Except Stop Ending
  | .ok () => .ok (.exited status)
  | .error stop =>
    match stop with
    | .exit status | .leaveFunction status => .ok (.exited status)
    | .failed => .ok (.exited failedStatus)
    | .leaveLoop _ | .nextRound _ => .ok (.exited status)
    | .killed n signal => if n = number then .ok (.killed signal) else .error stop
    | .expired => .ok (.killed .kill)

/-- How a child is started: as a copy of the shell that goes on as one, or as a program that takes
the place of the copy at once. -/
inductive ChildKind where
  | copy | program
  deriving DecidableEq, Repr

/-- The microseconds after which a child begins. -/
def ChildKind.delay : ChildKind → Nat
  | .copy => Machine.copyDelay
  | .program => 0

/-- The microseconds that the shell needs to start a child. -/
def ChildKind.cost : ChildKind → Nat
  | .copy => Machine.copyCost
  | .program => 0

/-- Carries out a task in a copy of the shell, with a number and a clock of its own. -/
def fork (kind : ChildKind) (adjust : State → State) (body : Task Unit) : Task Child :=
  fun s =>
    let number := s.machine.nextNumber
    let shell := adjust { s.shell with
      number, arrived := [], jobs := [], traps := s.shell.traps.filter (·.2 = "") }
    let machine := { s.machine with
      nextNumber := number + 1, running := number :: s.machine.running
      clock := s.machine.clock + kind.delay }
    let (r, t) := body { machine, shell }
    let after (started : List Child) (sent : List SentSignal) : Session :=
      { machine := { t.machine with
          clock := s.machine.clock + kind.cost, running := s.machine.running, started, sent }
        shell := s.shell.claimJob.2 }
    match endingOf number t.shell.status r with
    | .ok ending =>
      let ends := if r matches .error .expired then none else some t.machine.clock
      let parent := s.shell.number
      let child : Child :=
        { number, parent, began := s.machine.clock, ending, ends
          holds := t.shell.descriptors.map (·.2), ignores := t.shell.ignored }
      let notices := (ends.map fun time => ⟨time, number, parent, .childEnded⟩).toList
      (.ok child, after (child :: t.machine.started) (notices ++ t.machine.sent))
    | .error stop => (.error stop, after t.machine.started t.machine.sent)

/-- Waits for a child, and tells when it was killed; its status. -/
def join (child : Child) : Task Nat := do
  waitUntil (child.ends.map (· + Machine.noticeDelay))
  let time := (← machine).clock
  change ({ · with waited := time })
  match child.ending with
  | .killed signal =>
    match signal.notice? with
    | some notice => let _ ← write 2 (notice ++ "\n").toList
    | none => pure ()
  | .exited _ => pure ()
  return child.ending.status

/-- Carries out a task and then changes the shell, however the task ends. -/
def afterwards {α : Type} (body : Task α) (f : State → State) : Task α :=
  fun s =>
    let (r, t) := body s
    (r, { t with shell := f t.shell })

/-- Carries out a task in the name of a command. -/
def speaking {α : Type} (command : String) (body : Task α) : Task α := do
  let before := (← shell).speaker
  change ({ · with speaker := some command })
  afterwards body ({ · with speaker := before })

/-- Carries out a task while failures are looked for. -/
def guarded (body : Task Unit) : Task Unit := do
  let before := (← shell).guarded
  change ({ · with guarded := true })
  afterwards body ({ · with guarded := before })

/-- Ends the shell if a command has failed that nobody looks at. -/
def checkFailure : Task Unit := do
  let s ← shell
  if s.has .endOnFailure && !s.guarded && s.status ≠ 0 then throw (.exit s.status)

/-- Carries out a step again and again, as long as it says so, but at most `n` times; each step
gets what the one before gives. -/
@[specialize] def repeatFrom {α : Type} (step : α → Task (α × Bool)) : Nat → α → Task Unit
  | 0, _ => throw .expired
  | n + 1, x => do
    let (y, more) ← step x
    if more then repeatFrom step n y

/-! ## Files -/

/-- Opens a file; the answer is a reason if that is not possible. -/
def openFile (mode : OpenMode) (path : String) : Task (Except String Channel) := do
  let s ← shell
  let m ← machine
  let same (descriptor : Nat) : Option Channel := (s.descriptors.find? (·.1 = descriptor)).map (·.2)
  if path = "/dev/null" then return .ok .nowhere
  else if path = "/dev/stdout" then return .ok ((same 1).getD .nowhere)
  else if path = "/dev/stderr" then return .ok ((same 2).getD .nowhere)
  else if path = "/dev/stdin" then return .ok ((same 0).getD .nowhere)
  else match mode, m.disk.locate s.cwd (ofUtf8Octets path) with
    | .read, .ok (.present _ (.file bytes _)) =>
      let (n, m) := m.addBuffer (.ofBytes bytes)
      operate fun _ => m
      return .ok (.buffer n)
    | .read, .ok (.present _ .directory) => return .ok .nowhere
    | .read, .ok (.absent _ _) => return .error "No such file"
    | .read, .error fault =>
      return .error (if fault = .notDirectory then "Not a directory" else "No such file")
    | .append, .ok (.present location (.file _ _)) => return .ok (.file location)
    | .replace, .ok (.present location (.file _ executable)) =>
      operate fun m => { m with disk := m.disk.put location (.file [] executable) }
      return .ok (.file location)
    | .write, .ok (.present location (.file _ executable)) =>
      if s.has .keepFiles then return .error "File exists"
      operate fun m => { m with disk := m.disk.put location (.file [] executable) }
      return .ok (.file location)
    | _, .ok (.present _ .directory) => return .error "Is a directory"
    | _, .ok (.absent location false) =>
      operate fun m => { m with disk := m.disk.put location (.file [] false) }
      return .ok (.file location)
    | _, .ok (.absent _ true) => return .error "Is a directory"
    | _, .error fault =>
      return .error (if fault = .notDirectory then "Not a directory" else "Directory nonexistent")

end Task

end GoldenRun.Shell
