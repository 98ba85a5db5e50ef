import GoldenRun.Shell.Builtin.Basic

/-!
# Commands for variables and options

They set options and arguments, declare, hide and take away variables, and give them values from
what is read or from options.
-/

namespace GoldenRun.Shell.Builtin

/-- Lines in alphabetical order. -/
def sortedLines (lines : List String) : List Char :=
  (String.join (lines.mergeSort fun a b => decide (a ≤ b))).toList

/-- What is said where jobs cannot be controlled. -/
def noControl : String := "can't access tty; job control turned off"

/-- Takes over options.  Jobs cannot be controlled; a copy of the shell does not try to. -/
def takeOptions (o : Options) : Task Unit := do
  let s ← Task.shell
  let tried := o.contains .monitor && s.number = s.mainNumber
  if tried then Task.complain noControl
  Task.change ({ · with options := if tried then o.put .monitor false else o })

/-- Has the shell other arguments. -/
def replaceArguments (args : List String) : Task Unit := Task.change ({ · with args, scan := {} })

/-- Sets options and arguments; without any, lists the variables. -/
def set : Builtin
  | [] => do
    let s ← Task.shell
    Task.print <| sortedLines <| s.bindings.filterMap fun (name, v) =>
      v.value.map fun value => name ++ "=" ++ quoted value ++ "\n"
  | args => do
    let options := (← Task.shell).options
    match OptionReading.read false args.length { options, rest := args } with
    | .error option => Task.giveUp ("Illegal option " ++ option)
    | .ok r =>
      takeOptions r.options
      let status ← Task.print (String.join r.listings).toList
      if r.clears || !r.rest.isEmpty then replaceArguments r.rest
      return status

/-- Takes variables or functions away. -/
def unset : Builtin := fun args => do
  let (chosen, names) ← options "vf" args
  for name in names do
    if (chosen.getLast?.map (·.1)) = some 'f' then
      Task.change fun s => { s with functions := s.functions.filter (·.1 ≠ name) }
    else
      if !isName name.toList then Task.giveUp (name ++ ": bad variable name")
      if ((← Task.shell).slot name).fixed then Task.giveUp (name ++ ": is read only")
      Task.change (·.setVariable name none)
      Task.attend name none
  return 0

/-- A name and perhaps a value. -/
def declaration (text : String) : Task (String × Option String) := do
  let (name, behind) := text.toList.span (· ≠ '=')
  if !isName name then Task.giveUp (String.ofList name ++ ": bad variable name")
  match behind with
  | _ :: value => return (String.ofList name, some (String.ofList value))
  | [] => return (String.ofList name, none)

/-- Declares variables, changing each of them; without any, lists those that were declared so. -/
def declare (command : String) (f : Variable → Variable) : Builtin := fun args => do
  let (chosen, args) ← options "p" args
  if args.isEmpty || !chosen.isEmpty then
    let declared := (← Task.shell).bindings.filter fun (_, v) => f v = v
    return ← Task.print <| sortedLines <| declared.map fun (name, v) =>
      command ++ " " ++ name ++ v.value.elim "" (fun x => "=" ++ quoted x) ++ "\n"
  for text in args do
    let (name, value) ← declaration text
    match value with
    | some v => Task.assign name v
    | none => pure ()
    Task.change fun s => s.setVariable name (some (f (s.slot name)))
  return 0

/-- Hides variables up to the end of the running function; a hyphen stands for the options. -/
def local_ : Builtin := fun args => do
  if (← Task.shell).hidden.isEmpty then Task.giveUp "not in a function"
  for text in args do
    if text = "-" then
      Task.change fun s =>
        { s with hiddenOptions := match s.hiddenOptions with
            | none :: outer => some s.options :: outer
            | saved => saved }
    else
      let (name, value) ← declaration text
      let s ← Task.shell
      match s.hidden with
      | [] => pure ()
      | scope :: outer =>
        let old := (s.bindings.find? (·.1 = name)).map (·.2)
        if !scope.any (·.1 = name) then
          Task.change ({ · with hidden := ((name, old) :: scope) :: outer })
      match value with
      | some v => Task.assign name v
      | none => pure ()
  return 0

/-! ## Reading -/

/-- A line without its backslashes: what they quoted is quoted, and a line that ends in one goes
on. -/
def unquoteLine : List Char → List Glyph × Bool
  | [] => ([], false)
  | ['\\'] => ([], true)
  | '\\' :: c :: rest => let (s, more) := unquoteLine rest; (⟨c, true⟩ :: s, more)
  | c :: rest => let (s, more) := unquoteLine rest; (⟨c, false⟩ :: s, more)

/-- The fields of a line for some variables: the last one takes all that is left. -/
def lineFields (separators : Separators) : Nat → List Glyph → List String
  | 0, _ => []
  | n + 1, line =>
    let isWhite (g : Glyph) : Bool := !g.quoted && separators.white.contains g.char
    let isOther (g : Glyph) : Bool := !g.quoted && separators.other.contains g.char
    let line := line.dropWhile isWhite
    if n = 0 then [glyphText (line.reverse.dropWhile isWhite).reverse]
    else
      let field := line.takeWhile fun g => !isWhite g && !isOther g
      let behind := (line.drop field.length).dropWhile isWhite
      let behind := if behind.head?.any isOther then behind.drop 1 else behind
      glyphText field :: lineFields separators n behind

/-- Reads the next line, together with those it goes on with. -/
def nextLine (raw : Bool) : Nat → Task (Option (List Glyph × Bool))
  | 0 => return none
  | n + 1 => do
    match ← Task.readLine 0 with
    | none => return none
    | some (line, whole) =>
      let line := line.filter (· ≠ '\x00')
      if raw then return some (glyphs false line, whole)
      else
        let (s, more) := unquoteLine line
        if more && whole then
          match ← nextLine raw n with
          | some (t, whole) => return some (s ++ t, whole)
          | none => return some (s, false)
        else return some (s, whole)

/-- Reads a line into variables.  Nobody is there who could be prompted. -/
def read : Builtin := fun args => do
  let (chosen, names) ← options "p:r" args
  if names.isEmpty then Task.giveUp "arg count"
  match ← nextLine (chosen.any (·.1 = 'r')) 1000 with
  | none => return 1
  | some (line, whole) =>
    let separators := (← Task.shell).separators
    for name in names do
      if !isName name.toList then Task.giveUp (name ++ ": bad variable name")
    for (name, value) in names.zip (lineFields separators names.length line) do
      Task.assign name value
    return if whole then 0 else 1

/-- Goes through the options of some arguments, those of the shell if there are no others. -/
def getopts : Builtin
  | letters :: variable_ :: given => do
    let s ← Task.shell
    let step := s.scan.next letters.toList (if given.isEmpty then s.args else given)
    Task.change ({ · with scan := {} })
    match step.complaint with
    | some complaint => let _ ← Task.write 2 (complaint ++ "\n").toList
    | none => pure ()
    match step.argument with
    | .kept => pure ()
    | .none => Task.change (·.setVariable "OPTARG" none)
    | .given text => Task.assign "OPTARG" text
    Task.assign "OPTIND" (toString step.scan.index)
    if !isName variable_.toList then Task.giveUp (variable_ ++ ": bad variable name")
    Task.assign variable_ (String.ofList [step.name])
    Task.change ({ · with scan := step.scan })
    return if step.done then 1 else 0
  | _ => Task.giveUp "Usage: getopts optstring var [arg...]"

end GoldenRun.Shell.Builtin
