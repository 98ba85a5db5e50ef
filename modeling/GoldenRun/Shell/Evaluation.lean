import GoldenRun.Shell.Description
import GoldenRun.Shell.Reader
import GoldenRun.Shell.Utility

/-!
# Carrying out scripts

Words are expanded, commands are carried out, and programs are run; each of these can need the
others, so they are one family of functions.  Their first argument bounds the depth to which they
may call each other; a shell that goes deeper has no room left and is killed.

A command carried out as the last one of a copy of the shell takes the place of the copy: when it
is a program, its ending is the ending of the copy.
-/

namespace GoldenRun.Shell

open GoldenRun.Text

/-! ## Pieces of the work that need no depth -/

/-- The atoms of a value. -/
def valueAtoms (quoted : Bool) (text : String) : List Atom :=
  let atoms := text.toList.map fun c => Atom.glyph ⟨c, quoted⟩ (!quoted)
  if quoted then .mark :: atoms else atoms

/-- The atoms of all arguments, each one for itself. -/
def argumentAtoms (quoted : Bool) (args : List String) : List Atom :=
  match args with
  | [] => []
  | first :: rest => valueAtoms quoted first ++ rest.flatMap fun a => .cut :: valueAtoms quoted a

/-- The atoms of a parameter that has a value. -/
def parameterAtoms (s : State) (quoted : Bool) (name : String) : List Atom :=
  if name = "@" then argumentAtoms quoted s.args
  else if name = "*" then
    if quoted then valueAtoms true ((String.ofList s.joint).intercalate s.args)
    else argumentAtoms false s.args
  else valueAtoms quoted ((s.parameter? name).getD "")

/-- The value of a parameter as one text; all arguments together have one even if there are none. -/
def joinedParameter? (s : State) (name : String) : Option String :=
  if name = "@" || name = "*" then some (" ".intercalate s.args) else s.parameter? name

/-- Text between unquoted braces can separate fields. -/
def loosen (quoted : Bool) (atoms : List Atom) : List Atom :=
  if quoted then atoms
  else atoms.map fun
    | .glyph g _ => .glyph g (!g.quoted)
    | a => a

/-- A text without the newlines at its end. -/
def dropNewlines (s : List Char) : List Char := (s.reverse.dropWhile (· = '\n')).reverse

/-- The text of an assignment with the home directory in the place of a tilde behind a colon. -/
def expandColonTilde (home : List Char) : List Char → List Char
  | ':' :: '~' :: rest =>
    let ends := rest.head?.all fun c => c = '/' || c = ':'
    ':' :: ((if ends then home else ['~']) ++ expandColonTilde home rest)
  | c :: rest => c :: expandColonTilde home rest
  | [] => []

/-- The value of an assignment with the home directory in the place of tildes behind colons. -/
def expandColonTildes (s : State) (word : Word) : Word :=
  match s.value? "HOME" with
  | none => word
  | some home => word.map fun
    | .text false characters => .text false (expandColonTilde home.toList characters)
    | piece => piece

/-- A word with the home directory in the place of a leading tilde. -/
def expandTilde (s : State) (word : Word) : Word :=
  match word with
  | .text false ('~' :: characters) :: rest =>
    let ends := match characters with
      | [] => rest.isEmpty
      | c :: _ => c = '/'
    match ends, s.value? "HOME" with
    | true, some home => .text true home.toList :: .text false characters :: rest
    | _, _ => word
  | _ => word

/-- Gives variables values that programs get to know, for the time of a task. -/
def withAssignments {α : Type} (assignments : Task (List (String × String)))
    (body : List (String × String) → Task α) : Task α := do
  let before := (← Task.shell).bindings
  let values ← assignments
  let restore (s : State) : State :=
    values.foldl (fun s (name, _) =>
      { s.setVariable name ((before.find? (·.1 = name)).map (·.2)) with
        remembered := if name = "PATH" then [] else s.remembered }) s
  Task.afterwards (body values) restore

/-- Puts back the variables and options that a function has hidden. -/
def restoreHidden (s : State) : State :=
  match s.hidden with
  | [] => s
  | scope :: outer =>
    let options := ((s.hiddenOptions.head?).bind id).getD s.options
    scope.foldl (fun s (name, old) => s.setVariable name old)
      { s with hidden := outer, options, hiddenOptions := s.hiddenOptions.drop 1 }

/-- How many functions can be running in each other. -/
def functionDepth : Nat := 1000

/-- Remembers where the program of a stage is, if its name is written out. -/
def rememberStage : Command → Task Unit
  | .simple _ _ (word :: _) _ => do
    match (plainText? word).map String.ofList with
    | some name =>
      let s ← Task.shell
      if isName name.toList && (builtinKind? name).isNone && !s.functions.any (·.1 = name) then
        rememberProgram name
    | none => pure ()
  | _ => pure ()

/-- The command that is meant where a command is named to be carried out as no function. -/
def properCommand (command : String) : List String → String
  | [] => command
  | next :: rest =>
    if command = "command" && !next.startsWith "-" then properCommand next rest else command

/-- What a shell is asked to carry out. -/
inductive Source where
  /-- A text. -/
  | text (script : String)
  /-- A file. -/
  | file (path : String)
  /-- What it reads. -/
  | input

/-- How a shell is started. -/
structure Start where
  /-- What it carries out. -/
  source : Source
  /-- Its name. -/
  name : String
  /-- Its arguments. -/
  args : List String
  /-- Its options. -/
  options : Options

/-- How some arguments start a shell, with the lists that they ask for; or what is wrong with
them. -/
def startOf (name : String) (args : List String) : Except String (Start × List String) := do
  let r ← (OptionReading.read true args.length { options := [], rest := args }).mapError
    ("Illegal option " ++ ·)
  let start (source : Source) (name : String) (args : List String) : Start × List String :=
    (⟨source, name, args, r.options⟩, r.listings)
  let fromInput : Start × List String :=
    (⟨.input, name, r.rest, r.options.put .fromInput true⟩, r.listings)
  match r.asText, r.rest with
  | true, [] => throw "-c requires an argument"
  | true, [script] => return start (.text script) name []
  | true, script :: name :: args => return start (.text script) name args
  | false, [] => return fromInput
  | false, path :: args =>
    if r.options.contains .fromInput then return fromInput
    else return start (.file path) path args

/-- Where the program of a command is, for a shell. -/
def findProgram (command : String) (args : List String) : Task (Except (String × Nat) Launch) := do
  let s ← Task.shell
  if command = "" then return .error ("Permission denied", 127)
  match s.value? "PATH", command.toList.contains '/' with
  | none, false => return .error ("not found", 127)
  | path, _ =>
    match Launch.find (← Task.machine).disk s.cwd (path.getD "") command args with
    | .ok launch => return .ok launch
    | .error (.file .accessDenied) => return .error ("Permission denied", 126)
    | .error _ => return .error ("not found", 127)

/-- The status of a command that may give up. -/
def attempt (command : Task Nat) : Task Nat :=
  tryCatch command fun
    | .failed => return Task.failedStatus
    | stop => throw stop

/-- Carries out a command of the shell itself, in its name. -/
def runBuiltin (command : String) (builtin : Builtin) (args : List String) : Task Unit :=
  Task.speaking command do Task.setStatus (← builtin args)

/-- Carries out the lines of a script one after the other, at most a number of them; each line is
read with the aliases of its time.  `shown` says that lines can be shown when they are read. -/
def runLines (runLine : Command → Task Unit) (shown : Bool) : Nat → Cursor → Task Unit
  | 0, _ => return
  | n + 1, c => do
    let s ← Task.shell
    let show_ (behind : List Char) : Task Unit := do
      if shown && s.has .verbose then
        let _ ← Task.write 2 (c.rest.take (c.rest.length - behind.length))
    match readLine { c with aliases := s.aliases, inserted := [] } with
    | .ok none => show_ []
    | .ok (some (command, next)) =>
      show_ next.rest
      runLine command
      runLines runLine shown n next
    | .error e =>
      show_ []
      Task.change ({ · with line := e.line })
      Task.giveUp e.fault.message

/-- What is said of a descriptor that is not one digit. -/
def badDescriptor : String := "Syntax error: Bad fd number"

/-- Changes a descriptor. -/
def setDescriptor (descriptor : Nat) (channel : Option Channel) (s : State) : State :=
  let others := s.descriptors.filter (·.1 ≠ descriptor)
  { s with descriptors := channel.elim others fun c => (descriptor, c) :: others }

/-- A copy of the shell in the background: it reads nothing, and what comes from the keyboard does
not reach it. -/
def inBackground (s : State) : State :=
  { setDescriptor 0 (some .nowhere) s with deaf := s.deaf ++ Signal.fromKeyboard }

/-- One round of a loop; whether there is another one. -/
def roundOf (step : Task Bool) : Task Bool :=
  tryCatch step fun
    | .leaveLoop depth => if depth ≤ 1 then return false else throw (.leaveLoop (depth - 1))
    | .nextRound depth => if depth ≤ 1 then return true else throw (.nextRound (depth - 1))
    | stop => throw stop

/-- Carries out a body as long as a test says so; the status is that of the last round. -/
def runLoop (test : Task Bool) (body : Task Unit) : Task Unit := do
  let before ← Task.shell
  Task.change fun s => { s with loops := s.loops + 1 }
  let step (status : Nat) : Task (Nat × Bool) := do
    let more ← roundOf do
      if ← test then
        body
        return true
      else
        Task.setStatus status
        return false
    return ((← Task.shell).status, more)
  Task.afterwards (Task.repeatFrom step ((← Task.machine).budget + 1) 0)
    ({ · with loops := before.loops })

/-- Carries out a body for each of some values of a variable. -/
def runEach (name : String) (body : Task Unit) (values : List String) : Task Unit := do
  let before ← Task.shell
  Task.change fun s => { s with loops := s.loops + 1 }
  if values.isEmpty then Task.setStatus 0
  let work : Task Unit := do
    for value in values do
      Task.assign name value
      let more ← roundOf (do body; return true)
      if !more then break
  Task.afterwards work ({ · with loops := before.loops })

mutual

/-- The atoms of a piece. -/
def expandPiece : Nat → Piece → Task (List Atom)
  | 0, _ => Task.overflow
  | n + 1, piece =>
    match piece with
    | .text quoted characters =>
      let atoms := (glyphs quoted characters).map (Atom.glyph · false)
      return if quoted then .mark :: atoms else atoms
    | .parameter quoted name use => expandParameter n quoted name use
    | .output quoted script => do
      let text ← takeOutput n script
      return valueAtoms quoted (String.ofList (dropNewlines text))
    | .arithmetic quoted expression => do
      let text ← expandText n expression
      let s ← Task.shell
      match Arithmetic.evaluate s.value? text.toList with
      | .ok (value, changes) =>
        for (name, x) in changes do Task.assign name (toString x)
        return valueAtoms quoted (toString value)
      | .error fault => Task.giveUp (fault.message text)

/-- The atoms of a parameter, or of what is made of it. -/
def expandParameter : Nat → Bool → String → Use → Task (List Atom)
  | 0, _, _, _ => Task.overflow
  | n + 1, quoted, name, use => do
    let s ← Task.shell
    let value := joinedParameter? s name
    let demand : Task Unit := do
      if s.has .demandValues && value.isNone then
        Task.giveUp (name ++ ": parameter not set")
    match use with
    | .value =>
      demand
      return parameterAtoms s quoted name
    | .length =>
      demand
      let together := (String.ofList s.joint).intercalate s.args
      let text := if name = "@" || name = "*" then together else value.getD ""
      return valueAtoms quoted (toString text.length)
    | .fallback kind emptyIsNone word =>
      let present := value.any fun v => !(emptyIsNone && v = "")
      let empty := valueAtoms quoted ""
      match kind, present with
      | .alternative, true | .default, false =>
        return empty ++ loosen quoted (← expandWord n word)
      | .alternative, false => return empty
      | .assign, false =>
        let text ← expandText n word
        if !isName name.toList then Task.giveUp (name ++ ": bad variable name")
        Task.assign name text
        return valueAtoms quoted text
      | .demand, false =>
        let text ← expandText n word
        let message := if word ≠ [] then text
          else if emptyIsNone then "parameter not set or null" else "parameter not set"
        Task.giveUp (name ++ ": " ++ message)
      | _, true => return parameterAtoms s quoted name
    | .unknown => Task.giveUp "Bad substitution"
    | .trimmed atEnd longest word =>
      demand
      let pattern := Pattern.ofGlyphs (uncut [' '] (← expandWord n word))
      let text := (value.getD "").toList
      let rest := if atEnd then pattern.trimEnd longest text else pattern.trimStart longest text
      return valueAtoms quoted (String.ofList rest)

/-- The atoms of a word. -/
def expandWord : Nat → Word → Task (List Atom)
  | 0, _ => Task.overflow
  | n + 1, word => do
    let s ← Task.shell
    let parts ← (expandTilde s word).mapM (expandPiece n)
    return parts.flatten

/-- A word as one text. -/
def expandText : Nat → Word → Task String
  | 0, _ => Task.overflow
  | n + 1, word => return glyphText (uncut [' '] (← expandWord n word))

/-- Words as the arguments of a command. -/
def expandFields : Nat → List Word → Task (List String)
  | 0, _ => Task.overflow
  | n + 1, words => do
    let parts ← words.mapM fun word => do
      let atoms ← expandWord n word
      let s ← Task.shell
      let fields := cutFields s.separators atoms
      if s.has .keepPatterns then return fields.map glyphText
      let disk := (← Task.machine).disk
      return fields.flatMap (expandPath disk s.cwd)
    return parts.flatten

/-- What a script writes. -/
def takeOutput : Nat → Command → Task (List Char)
  | 0, _ => Task.overflow
  | n + 1, script => do
    let (buffer, m) := (← Task.machine).addBuffer {}
    Task.operate fun _ => m
    let child ← Task.fork .copy (setDescriptor 1 (some (.buffer buffer)))
      (finish n (run n true script))
    let status ← Task.join child
    Task.waitUntil ((← Task.machine).closes (.buffer buffer) child.ends)
    Task.change ({ · with outputStatus := status })
    return (ofOctets (((← Task.machine).bufferBytes buffer).filter (· ≠ 0))).toList

/-- Carries out redirections; whether all of them were possible. -/
def redirect : Nat → List Redirection → Task Bool
  | 0, _ => Task.overflow
  | _ + 1, [] => return true
  | n + 1, redirection :: rest => do
    let put (descriptor : Nat) (channel : Option Channel) : Task Unit :=
      Task.change (setDescriptor descriptor channel)
    let done ← match redirection with
      | .file descriptor mode word => do
        let path ← expandText n word
        match ← Task.openFile mode path with
        | .ok channel =>
          put descriptor (some channel)
          pure true
        | .error reason =>
          let verb := if mode = .read then "open " else "create "
          Task.complain ("cannot " ++ verb ++ path ++ ": " ++ reason)
          pure false
      | .copy descriptor word => do
        let source ← expandText n word
        if source = "-" then
          put descriptor none
          pure true
        else match source.toList with
          | [digit] =>
            if !digit.isDigit then Task.giveUp badDescriptor
            match ← Task.channel? (digit.toNat - 0x30) with
            | some channel =>
              put descriptor (some channel)
              pure true
            | none =>
              Task.complain (source ++ ": Bad file descriptor")
              pure false
          | _ => Task.giveUp badDescriptor
      | .inline descriptor word => do
        let text ← expandText n word
        let (buffer, m) := (← Task.machine).addBuffer (.ofBytes (toOctets text))
        Task.operate fun _ => m
        put descriptor (some (.buffer buffer))
        pure true
    if done then redirect n rest else return false

/-- Carries out a task with redirections; the descriptors are put back behind it.  If they are not
possible, the task fails or, when it is `vital`, gives up. -/
def redirected : Nat → Bool → List Redirection → Task Unit → Task Unit
  | 0, _, _, _ => Task.overflow
  | n + 1, vital, redirections, body => do
    let before := (← Task.shell).descriptors
    let work : Task Unit := do
      if ← redirect n redirections then body
      else if vital then throw .failed
      else Task.setStatus Task.failedStatus
    Task.afterwards work ({ · with descriptors := before })

/-- Carries out a command; `last` says that it is the last one of a copy of the shell. -/
def run : Nat → Bool → Command → Task Unit
  | 0, _, _ => Task.overflow
  | n + 1, last, command => do
    Task.tick
    if (← Task.shell).has .readOnly then return
    match command with
    | .simple line assignments words redirections =>
      Task.change ({ · with line })
      runSimple n last assignments words redirections
      deliver n
      Task.checkFailure
    | .redirected line body redirections =>
      Task.change ({ · with line })
      redirected n false redirections (run n false body)
      Task.checkFailure
    | .negated body =>
      Task.guarded (run n false body)
      Task.change fun s => { s with status := if s.status = 0 then 1 else 0 }
    | .pipeline stages =>
      runPipeline n stages
      deliver n
      Task.checkFailure
    | .andThen first second =>
      Task.guarded (run n false first)
      if (← Task.shell).status = 0 then run n last second
    | .orElse first second =>
      Task.guarded (run n false first)
      if (← Task.shell).status ≠ 0 then run n last second
    | .sequence [] => Task.setStatus 0
    | .sequence commands => runAll n last commands
    | .background body =>
      let work := match body with
        | .redirected _ inner redirections => do
          if ← redirect n redirections then run n true inner else throw .failed
        | _ => run n true body
      let child ← Task.fork .copy (inBackground ·) (finish n work)
      let stages := match body with
        | .pipeline stages => stages.length
        | _ => 1
      Task.change fun s =>
        let (number, s) := s.claimJob
        { s with
          jobs := { number, program := child.number, stages } :: s.jobs
          lastJob := some child.number
          status := 0 }
    | .subshell line body =>
      Task.change ({ · with line })
      if last && (← Task.shell).traps.isEmpty then
        Task.change ({ · with jobs := [] })
        finish n (run n true body)
      let child ← Task.fork .copy id (finish n (run n true body))
      Task.setStatus (← Task.join child)
      deliver n
      Task.checkFailure
    | .conditional test yes no =>
      Task.guarded (run n false test)
      if (← Task.shell).status = 0 then run n last yes else run n last no
    | .loop whileFailing test body =>
      let holds : Task Bool := do
        Task.guarded (run n false test)
        return ((← Task.shell).status = 0) != whileFailing
      runLoop holds (run n false body)
    | .each line name words body =>
      Task.change ({ · with line })
      let values ← match words with
        | some words => expandFields n words
        | none => pure (← Task.shell).args
      runEach name (run n false body) values
    | .choice line subject branches =>
      Task.change ({ · with line })
      let text ← expandText n subject
      runChoice n last text branches
    | .define name body =>
      Task.change fun s =>
        { s with functions := (name, body) :: s.functions.filter (·.1 ≠ name), status := 0 }

/-- Carries out commands one after the other. -/
def runAll : Nat → Bool → List Command → Task Unit
  | 0, _, _ => Task.overflow
  | _ + 1, _, [] => return
  | n + 1, last, [command] => run n last command
  | n + 1, last, command :: rest => do
    run n false command
    runAll n last rest

/-- Carries out the script that a signal calls for. -/
def deliver : Nat → Task Unit
  | 0 => Task.overflow
  | n + 1 => do
    match (← Task.shell).arrived.mergeSort fun a b => a.number ≤ b.number with
    | [] => return
    | signal :: rest =>
      Task.change ({ · with arrived := rest })
      let s ← Task.shell
      match s.traps.find? (·.1 = signal.word) with
      | some (_, action) =>
        runText n false action
        Task.setStatus s.status
      | none => return
      deliver n

/-- Carries out a text in this shell; `shown` says that its lines can be shown. -/
def runText : Nat → Bool → String → Task Unit
  | 0, _, _ => Task.overflow
  | n + 1, shown, text => do
    let start : Cursor := { rest := text.toList }
    if start.skipSpace.atEnd then Task.setStatus 0
    runLines (run n false) shown (text.length + 1) start

/-- Carries out a shell to its end, with what it is to do then. -/
def finish : Nat → Task Unit → Task Unit
  | 0, _ => Task.overflow
  | n + 1, body => do
    let status ← tryCatch (do body; return (← Task.shell).status) fun
      | .exit status => return status
      | .leaveFunction status => return status
      | .failed => return Task.failedStatus
      | stop => throw stop
    match (← Task.shell).traps.find? (·.1 = "EXIT") with
    | none => throw (.exit status)
    | some (_, action) =>
      Task.change fun s => { s with traps := s.traps.filter (·.1 ≠ "EXIT"), status }
      tryCatch (runText n false action) fun
        | .leaveFunction _ => return
        | stop => throw stop
      throw (.exit status)

/-- What stands in front of a command that is shown. -/
def traceMark : Nat → Task String
  | 0 => Task.overflow
  | n + 1 => do
    let text := ((← Task.shell).value? "PS4").getD ""
    match readInline text.toList with
    | some word => expandText n word
    | none => return text

/-- Shows a command on a channel before it is carried out, if that is asked for. -/
def showTrace : Nat → Option Channel → List String → Task Unit
  | 0, _, _ => Task.overflow
  | n + 1, channel, words => do
    if (← Task.shell).has .trace then
      let mark ← traceMark n
      let _ ← Task.writeTo channel (mark ++ " ".intercalate words ++ "\n").toList

/-- Gives variables values, one after the other; `forPrograms` says that programs get to know
them. -/
def assignAll : Nat → Bool → List (String × Word) → Task (List (String × String))
  | 0, _, _ => Task.overflow
  | _ + 1, _, [] => return []
  | n + 1, forPrograms, (name, word) :: rest => do
    let value ← expandText n (expandColonTildes (← Task.shell) word)
    Task.assign name value
    if forPrograms then
      Task.change fun s => s.setVariable name (some { s.slot name with exported := true })
    return (name, value) :: (← assignAll n forPrograms rest)

/-- Carries out a simple command: its words are expanded first, then its descriptors are changed,
and then its variables get their values.  What is shown of it goes where complaints went before. -/
def runSimple : Nat → Bool → List (String × Word) → List Word → List Redirection → Task Unit
  | 0, _, _, _, _ => Task.overflow
  | n + 1, last, assignments, words, redirections => do
    Task.change ({ · with outputStatus := 0 })
    let fields ← expandFields n words
    let channel ← Task.channel? 2
    let trace (values : List (String × String)) : Task Unit :=
      showTrace n channel (values.map (fun (name, value) => name ++ "=" ++ value) ++ fields)
    match fields with
    | [] =>
      redirected n false redirections (do
        let values ← assignAll n false assignments
        if !values.isEmpty then trace values
        Task.change fun s => { s with status := s.outputStatus })
    | command :: args =>
      let s ← Task.shell
      let proper := properCommand command args
      let here (body : Task Unit) : Task Unit :=
        withAssignments (assignAll n true assignments) fun values => do
          trace values
          body
      let forGood (body : Task Unit) : Task Unit := do
        if ← redirect n redirections then body
        else if command = proper then throw .failed
        else Task.setStatus Task.failedStatus
      match s.functions.lookup command, specialBuiltins.lookup command with
      | some body, _ => redirected n false redirections (here (runFunction n body args))
      | none, some builtin =>
        redirected n true redirections (do
          trace (← assignAll n false assignments)
          runBuiltin command builtin args)
      | none, none =>
        if ["exec", "eval", "."].contains command then
          let work : Task Unit := do
            trace (← assignAll n false assignments)
            carry n command args
          if command = "exec" then forGood work else redirected n true redirections work
        else
          let work := here (runProgram n last command args)
          if proper = "exec" then forGood work
          else if last && s.traps.isEmpty && (builtinKind? proper).isNone then
            if ← redirect n redirections then work else Task.setStatus Task.failedStatus
          else redirected n false redirections work

/-- Carries out one of the commands that carry out others in this shell. -/
def carry : Nat → String → List String → Task Unit
  | 0, _, _ => Task.overflow
  | n + 1, command, args => Task.speaking command do
    if command = "exec" then
      match (if args.head? = some "--" then args.drop 1 else args) with
      | [] => Task.setStatus 0
      | program :: args => replace n program args
    else if command = "eval" then runText n false (" ".intercalate args)
    else runFile n args

/-- Carries out a function. -/
def runFunction : Nat → Command → List String → Task Unit
  | 0, _, _ => Task.overflow
  | n + 1, body, args => do
    let before ← Task.shell
    if functionDepth < before.hidden.length then
      Task.giveUp ("Maximum function recursion depth (" ++ toString functionDepth ++ ") reached")
    Task.change fun s =>
      { s with
        args, scan := {}, hidden := [] :: s.hidden, hiddenOptions := none :: s.hiddenOptions }
    let work : Task Unit := tryCatch (run n false body) fun
      | .leaveFunction status => Task.setStatus status
      | stop => throw stop
    Task.afterwards work fun s =>
      { restoreHidden s with args := before.args, scan := before.scan, loops := before.loops }

/-- Carries out a command of the shell that is not special, or a program. -/
def runProgram : Nat → Bool → String → List String → Task Unit
  | 0, _, _, _ => Task.overflow
  | n + 1, last, command, args => do
    let here (task : Task Nat) : Task Unit := do Task.setStatus (← attempt task)
    if command = "command" then
      match (Builtin.options "pvV" args).run (← get) with
      | (.ok (chosen, args), _) =>
        match args with
        | [] => here (return 0)
        | command :: args =>
          if chosen.any (·.1 = 'V') then here (describe true command)
          else if chosen.any (·.1 = 'v') then here (describe false command)
          else
            match specialBuiltins.lookup command with
            | some builtin =>
              here (Task.speaking command (builtin args))
            | none =>
              if ["exec", "eval", "."].contains command then carry n command args
              else runProgram n last command args
      | _ => here (Task.speaking command do let _ ← Builtin.options "pvV" args; return 0)
    else if command = "type" then here (Task.speaking command (Builtin.type args))
    else if command = "hash" then here (Task.speaking command (Builtin.hash args))
    else match ordinaryBuiltins.lookup command with
      | some builtin => here (Task.speaking command (builtin args))
      | none =>
        if last && (← Task.shell).traps.isEmpty then replace n command args
        else
          let isNamed := !command.toList.contains '/'
          if let (true, .error (message, 127)) := (isNamed, ← findProgram command args) then
            Task.complain (command ++ ": " ++ message)
            return ← Task.setStatus 127
          rememberProgram command
          let child ← Task.fork .program id (replace n command args)
          Task.setStatus (← Task.join child)

/-- Has a program take the place of the shell. -/
def replace : Nat → String → List String → Task Unit
  | 0, _, _ => Task.overflow
  | n + 1, command, args => do
    match ← findProgram command args with
    | .error (message, status) =>
      Task.complain (command ++ ": " ++ message)
      throw (.exit status)
    | .ok launch =>
      Task.pause Machine.loadDelay
      Task.change fun s => { s with traps := s.traps.filter (·.2 = "") }
      perform n launch (← Task.shell).environment

/-- Carries out a program in the place of the shell. -/
def perform : Nat → Launch → Environment → Task Unit
  | 0, _, _ => Task.overflow
  | n + 1, launch, env => do
    let name := launch.args.head?.getD ""
    let args := launch.args.drop 1
    match launch.utility with
    | .succeed => throw (.exit 0)
    | .fail => throw (.exit 1)
    | .sleep => throw (.exit (← Utility.sleep name args))
    | .cat => throw (.exit (← Utility.cat name args))
    | .echo => throw (.exit (← Utility.echo args))
    | .pwd => throw (.exit (← Builtin.pwd args))
    | .shell => startShell n name args env

/-- Starts a shell in the place of the one before. -/
def startShell : Nat → String → List String → Environment → Task Unit
  | 0, _, _, _ => Task.overflow
  | n + 1, name, args, env => do
    let s ← Task.shell
    let parent := ((← Task.machine).running.drop 1).headD (s.number - 1)
    Task.change fun _ =>
      { State.initial name env s.cwd s.descriptors parent s.number s.mask with deaf := s.ignored }
    Task.change ({ · with line := 0 })
    match startOf name args with
    | .error message => Task.giveUp message
    | .ok (start, listings) =>
      let _ ← Task.print (String.join listings).toList
      if start.options.any fun o => o = .monitor || o = .interactive then
        Task.complain Builtin.noControl
      let options := start.options.put .monitor false
      Task.change ({ · with name := start.name, args := start.args, options, line := 1 })
      match start.source with
      | .text script => finish n (runText n false script)
      | .input =>
        let m ← Task.machine
        let (pieces, ready) := ((← Task.channel? 0).map m.readable).getD ([], some 0)
        Task.waitUntil ready
        finish n (runText n true (ofOctets (pieces.flatMap (·.bytes))))
      | .file path =>
        match ← Task.openFile .read path with
        | .ok (.buffer buffer) =>
          let text := ofOctets ((← Task.machine).bufferBytes buffer)
          finish n (runText n true text)
        | .ok _ => throw (.exit 0)
        | .error reason =>
          Task.change ({ · with name, line := 0 })
          Task.complain ("cannot open " ++ path ++ ": " ++ reason)
          throw (.exit 2)

/-- Carries out a file in this shell; complaints are made in the name of the file. -/
def runFile : Nat → List String → Task Unit
  | 0, _ => Task.overflow
  | n + 1, args => do
    match ← Builtin.operands args with
    | [] => Task.setStatus 0
    | name :: _ =>
      let s ← Task.shell
      let disk := (← Task.machine).disk
      let places := if name.toList.contains '/' then [name]
        else (s.value? "PATH").elim [] (Launch.candidates · name)
      match places.find? fun path => disk.isFile s.cwd (ofUtf8Octets path) with
      | none =>
        if name.toList.contains '/' then Task.giveUp ("cannot open " ++ name ++ ": No such file")
        else Task.giveUp (name ++ ": not found")
      | some path =>
        match ← Task.openFile .read path with
        | .ok (.buffer buffer) =>
          let text := ofOctets ((← Task.machine).bufferBytes buffer)
          tryCatch (Task.speaking path (runText n true text)) fun
            | .leaveFunction status => Task.setStatus status
            | stop => throw stop
        | _ => Task.giveUp ("cannot open " ++ path)

/-- Carries out the stages of a pipeline. -/
def runPipeline : Nat → List Command → Task Unit
  | 0, _ => Task.overflow
  | n + 1, stages => do
    let children ← runStages n stages none
    let mut status := 0
    for child in children do status ← Task.join child
    Task.setStatus status

/-- Starts the stages of a pipeline, the first of which reads from the given channel. -/
def runStages : Nat → List Command → Option Channel → Task (List Child)
  | 0, _, _ => Task.overflow
  | _ + 1, [], _ => return []
  | n + 1, stage :: rest, input => do
    rememberStage stage
    let (buffer, m) := (← Task.machine).addBuffer {}
    Task.operate fun _ => m
    let child ← Task.fork .copy (fun s =>
      let s := match input with
        | some channel => setDescriptor 0 (some channel) s
        | none => s
      if rest.isEmpty then s else setDescriptor 1 (some (.buffer buffer)) s)
      (finish n (run n true stage))
    Task.operate fun m =>
      m.setBuffer buffer { (m.buffers[buffer]?).getD {} with
        ready := m.closes (.buffer buffer) child.ends }
    return child :: (← runStages n rest (some (.buffer buffer)))

/-- Carries out the first branch of which a pattern fits. -/
def runChoice : Nat → Bool → String → List (List Word × Command) → Task Unit
  | 0, _, _, _ => Task.overflow
  | _ + 1, _, _, [] => Task.setStatus 0
  | n + 1, last, text, (words, body) :: rest => do
    if ← anyFits n text words then run n last body else runChoice n last text rest

/-- Whether a text has the form of one of some patterns. -/
def anyFits : Nat → String → List Word → Task Bool
  | 0, _, _ => Task.overflow
  | _ + 1, _, [] => return false
  | n + 1, text, word :: rest => do
    let pattern := Pattern.ofGlyphs (uncut [' '] (← expandWord n word))
    if pattern.accepts text.toList then return true else anyFits n text rest

end

end GoldenRun.Shell
