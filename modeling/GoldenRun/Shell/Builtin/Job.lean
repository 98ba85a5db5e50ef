import GoldenRun.Shell.Builtin.Basic

/-!
# Commands for signals and for commands in the background

A shell that nobody watches does not control its jobs: it can wait for them and tell of them, but
not bring them to the front.
-/

namespace GoldenRun.Shell

namespace State

/-- The job that a text means; without one, the latest. -/
def job (s : State) (text : String) : Except String Job :=
  let absent (found : Option Job) (fault : String) : Except String Job :=
    match found with
    | some job => .ok job
    | none => .error fault
  match text with
  | "" | "%" | "%%" | "%+" => absent s.jobs.head? "No current job"
  | "%-" => absent s.jobs[1]? "No previous job"
  | _ =>
    let digits := (text.drop 1).toString
    let number := if digits.toList.all Char.isDigit then digits.toNat? else none
    absent (s.jobs.find? fun job => some job.number = number) ("No such job: " ++ text)

end State

namespace Builtin

/-- The job that a text means, or the command gives up. -/
def theJob (text : String) : Task Job := do
  match (← Task.shell).job text with
  | .ok job => return job
  | .error fault => Task.giveUp fault

/-- The program of a job. -/
def jobChild? (job : Job) : Task (Option Child) := do
  return (← Task.machine).started.find? (·.number = job.program)

/-- Marks the jobs of some programs as awaited. -/
def markAwaited (programs : List Nat) : Task Unit :=
  Task.change fun s =>
    { s with jobs := s.jobs.map fun job =>
        if programs.contains job.program then { job with awaited := true } else job }

/-- Waits for the commands in the background; a signal that asks for something to be done ends
that. -/
def wait : Builtin := fun args => do
  let args ← operands args
  let s ← Task.shell
  match args with
  | [] =>
    for child in (← Task.machine).started do
      if child.parent = s.number then
        if let some signal ← Task.waitOrMeet child.ends then return 128 + signal.number
    let time := (← Task.machine).clock
    Task.change ({ · with waited := time })
    markAwaited (s.jobs.map (·.program))
    return 0
  | args =>
    let mut status := 0
    for text in args do
      let n ← if text.startsWith "%" then do pure (← theJob text).program else Task.number text
      let children := (← Task.machine).started
      match children.find? fun child => child.number = n && child.parent = s.number with
      | some child =>
        if let some signal ← Task.waitOrMeet child.ends then return 128 + signal.number
        status ← Task.join child
        markAwaited [n]
      | none => status := 127
    return status

/-- The line that tells of a job: its number, whether it is the latest or the one before, its
program if the line is to be `long`, and what has become of it. -/
def jobLine (place : Nat) (long : Bool) (job : Job) (ended : Option Ending) : String :=
  let state := match ended with
    | none => "Running"
    | some (.exited 0) => "Done"
    | some (.exited code) => "Done(" ++ toString code ++ ")"
    | some (.killed signal) => signal.notice?.getD ("Signal " ++ toString signal.number)
  let mark := match place with
    | 0 => "+"
    | 1 => "-"
    | _ => " "
  let program := if long then toString job.program ++ " " else ""
  let text := "[" ++ toString job.number ++ "] " ++ mark ++ " " ++ program ++ state
  text ++ String.ofList (List.replicate (max 1 (33 - text.length)) ' ') ++
    String.join (List.replicate (job.stages - 1) " | ") ++ "\n"

/-- Tells of jobs, or of their programs; those that have ended are told of for the last time. -/
def jobs : Builtin := fun args => do
  let (chosen, args) ← options "lp" args
  let s ← Task.shell
  let clock := (← Task.machine).clock
  Task.change ({ · with waited := clock })
  let shown ← if args.isEmpty then pure s.jobs else args.mapM theJob
  for job in s.jobs do
    if shown.contains job then
      let place := ((← Task.shell).jobs.idxOf? job).getD 0
      match ← jobChild? job with
      | none => pure ()
      | some child =>
        let ended := if child.ends.any (· ≤ clock) then some child.ending else none
        let line := if chosen.any (·.1 = 'p') then toString child.number ++ "\n"
          else jobLine place (chosen.any (·.1 = 'l')) job ended
        let _ ← Task.print line.toList
        if ended.isSome then
          Task.change fun s => { s with jobs := s.jobs.filter (·.number ≠ job.number) }
  return 0

/-- Would bring a job to the front, or have it go on behind. -/
def resume : Builtin := fun args => do
  let args ← operands args
  let text := args.headD ""
  let _ ← theJob text
  let name := if text = "" then "(null)" else text
  Task.giveUp ("job " ++ name ++ " not created under job control")

/-- Tells how much time was spent, which is none to speak of. -/
def times : Builtin := fun _ =>
  let line := "0m0.000000s 0m0.000000s\n"
  Task.print (line ++ line).toList

/-! ## Signals -/

/-- Sends a signal to a program, or to all of a group; whether there is one.  The programs that have
led to this one get it when they come to this moment. -/
def send (signal : Signal) (toGroup : Bool) (number : Nat) : Task Bool := do
  let s ← Task.shell
  let m ← Task.machine
  if toGroup || number = 0 then
    if signal.isHarmless then return true
    throw (.killed Machine.firstNumber signal)
  else if number = s.number then
    let _ ← Task.receive signal
    return true
  else if m.running.contains number then
    Task.operate fun m => { m with sent := ⟨m.clock, s.number, number, signal⟩ :: m.sent }
    return true
  else match m.started.find? (·.number = number) with
  | some child =>
    let isKnown (time : Nat) : Bool :=
      (if child.parent = s.number then s.waited else m.clock) < time
    let hasBegun := child.began + Machine.copyDelay ≤ m.clock
    let ignores := if hasBegun then child.ignores else s.ignored
    let heeds := signal = Signal.kill || !(signal.isHarmless || ignores.contains signal)
    if heeds && child.ends.all (m.clock < ·) then Task.operate (·.kill child signal)
    return child.ends.all isKnown
  | none => return false

/-- How `kill` is used. -/
def killUsage : String :=
  "Usage: kill [-s sigspec | -signum | -sigspec] [pid | job]... or\nkill -l [exitstatus]"

/-- Sends a signal to programs and jobs. -/
def killAll (signal : Signal) (targets : List String) : Task Nat := do
  let mut status := 0
  for target in targets do
    let found ←
      if target.startsWith "%" then do
        let _ ← theJob target
        pure false
      else if target.startsWith "-" then do
        send signal true (← Task.number (target.drop 1).toString)
      else do send signal false (← Task.number target)
    if !found then
      Task.complain "No such process\n"
      status := 1
  return status

/-- Names signals. -/
def listSignals : Builtin
  | [] => Task.print Signal.wordLines.toList
  | text :: _ => do
    match Signal.ofStatus? (← Task.number text) with
    | some signal => Task.print (signal.word ++ "\n").toList
    | none => Task.giveUp ("invalid signal number or exit status: " ++ text)

/-- Sends signals, or names them. -/
def kill : Builtin := fun args => do
  let usual (signal : Option Signal) (lists : Bool) (targets : List String) : Task Nat :=
    if lists then if signal.isSome then Task.giveUp killUsage else listSignals targets
    else if targets.isEmpty then Task.giveUp killUsage
    else killAll (signal.getD Signal.term) targets
  match args with
  | first :: rest =>
    if !first.startsWith "-" then usual none false args
    else match Signal.ofWord? 1 (first.drop 1).toString with
      | some signal => usual signal false rest
      | none =>
        let (chosen, targets) ← options "ls:" args
        let mut signal : Option Signal := none
        for (letter, text) in chosen do
          if letter = 's' then
            match Signal.ofWord? 1 text with
            | some s => signal := some s
            | none => Task.giveUp ("invalid signal number or name: " ++ text)
        usual signal (chosen.any (·.1 = 'l')) targets
  | [] => Task.giveUp killUsage

/-- Says what is done on a signal. -/
def trap : Builtin := fun args => do
  match ← operands args with
  | [] =>
    let traps := (← Task.shell).traps
    let lines := (List.range Signal.count).filterMap fun n =>
      let word := Signal.word ⟨n⟩
      (traps.find? (·.1 = word)).map fun (_, action) =>
        "trap -- " ++ quoted action ++ " " ++ word ++ "\n"
    Task.print (String.join lines).toList
  | first :: rest =>
    let bare := rest.isEmpty || (Signal.ofWord? 0 first).any fun _ => first.toList.all Char.isDigit
    let (action, names) := if bare then (none, first :: rest)
      else (if first = "-" then none else some first, rest)
    for text in names do
      match Signal.ofWord? 0 text with
      | none =>
        let _ ← Task.write 2 ("trap: " ++ text ++ ": bad trap\n").toList
        return 1
      | some signal =>
        Task.change fun s =>
          let others := s.traps.filter (·.1 ≠ signal.word)
          { s with traps := action.elim others fun a => (signal.word, a) :: others }
    return 0

end Builtin

end GoldenRun.Shell
