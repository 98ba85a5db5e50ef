/-!
# Options of a shell

What a shell can be told to do.  Every option has a name, and most have a letter.  Arguments that
begin with a hyphen turn options on, arguments that begin with a plus sign turn them off; `-o` and
`+o` take a name, or list the options where there is none.
-/

namespace GoldenRun.Shell

/-- Something that a shell can be told to do. -/
inductive ShellOption where
  /-- To end when a command fails. -/
  | endOnFailure
  /-- To leave patterns alone. -/
  | keepPatterns
  /-- Not to end with what is read. -/
  | ignoreEnd
  /-- To talk to somebody. -/
  | interactive
  /-- To control jobs. -/
  | monitor
  /-- To read commands without carrying them out. -/
  | readOnly
  /-- To read commands from the input. -/
  | fromInput
  /-- To show commands before they are carried out. -/
  | trace
  /-- To show lines when they are read. -/
  | verbose
  /-- To edit lines in one way. -/
  | vi
  /-- To edit lines in another way. -/
  | emacs
  /-- Not to overwrite files. -/
  | keepFiles
  /-- To let programs know every variable that gets a value. -/
  | exportAll
  /-- To tell at once of jobs that end. -/
  | notify
  /-- To give up on parameters without a value. -/
  | demandValues
  /-- To keep privileges. -/
  | privileged
  /-- Not to remember definitions of functions. -/
  | noLog
  /-- To watch the shell itself. -/
  | debug
  deriving DecidableEq, Repr

namespace ShellOption

/-- All options, in the order in which they are listed. -/
def all : List ShellOption :=
  [endOnFailure, keepPatterns, ignoreEnd, interactive, monitor, readOnly, fromInput, trace, verbose,
    vi, emacs, keepFiles, exportAll, notify, demandValues, privileged, noLog, debug]

/-- The name of an option. -/
def name : ShellOption → String
  | endOnFailure => "errexit"
  | keepPatterns => "noglob"
  | ignoreEnd => "ignoreeof"
  | interactive => "interactive"
  | monitor => "monitor"
  | readOnly => "noexec"
  | fromInput => "stdin"
  | trace => "xtrace"
  | verbose => "verbose"
  | vi => "vi"
  | emacs => "emacs"
  | keepFiles => "noclobber"
  | exportAll => "allexport"
  | notify => "notify"
  | demandValues => "nounset"
  | privileged => "privileged"
  | noLog => "nolog"
  | debug => "debug"

/-- The letter of an option. -/
def letter? : ShellOption → Option Char
  | endOnFailure => some 'e'
  | keepPatterns => some 'f'
  | ignoreEnd => some 'I'
  | interactive => some 'i'
  | monitor => some 'm'
  | readOnly => some 'n'
  | fromInput => some 's'
  | trace => some 'x'
  | verbose => some 'v'
  | vi => some 'V'
  | emacs => some 'E'
  | keepFiles => some 'C'
  | exportAll => some 'a'
  | notify => some 'b'
  | demandValues => some 'u'
  | privileged => some 'p'
  | noLog | debug => none

/-- The option with a name. -/
def ofName? (name : String) : Option ShellOption := all.find? (·.name = name)

/-- The option with a letter. -/
def ofLetter? (letter : Char) : Option ShellOption := all.find? (·.letter? = some letter)

end ShellOption

/-- The options that are on. -/
abbrev Options := List ShellOption

namespace Options

/-- The options with one of them on or off. -/
def put (o : Options) (option : ShellOption) (on : Bool) : Options :=
  let others := o.filter (· ≠ option)
  if on then
    match option with
    | .vi => option :: others.filter (· ≠ .emacs)
    | .emacs => option :: others.filter (· ≠ .vi)
    | _ => option :: others
  else others

/-- The letters of the options that are on. -/
def letters (o : Options) : String :=
  String.ofList ((ShellOption.all.reverse.filter o.contains).filterMap (·.letter?))

/-- The list of all options: as a table, or as commands that bring them about. -/
def listing (o : Options) (asTable : Bool) : String :=
  let line (option : ShellOption) : String :=
    let on := o.contains option
    if asTable then
      option.name ++ String.ofList (List.replicate (16 - option.name.length) ' ') ++
        (if on then "on" else "off") ++ "\n"
    else "set " ++ (if on then "-o " else "+o ") ++ option.name ++ "\n"
  (if asTable then "Current option settings\n" else "") ++ String.join (ShellOption.all.map line)

end Options

/-- How far the options at the beginning of some arguments have been read. -/
structure OptionReading where
  /-- The options. -/
  options : Options
  /-- The arguments that are left. -/
  rest : List String
  /-- Whether the arguments are said to be none. -/
  clears : Bool := false
  /-- Whether a script is among the arguments. -/
  asText : Bool := false
  /-- The lists that were asked for. -/
  listings : List String := []

namespace OptionReading

/-- Reads the letters of an argument.  When a shell starts, two more letters have a meaning, and
a list shows all options that were not mentioned as on.  A fault is the option that there is
not. -/
def letters (starting on : Bool) : List Char → OptionReading → Except String OptionReading
  | [], r => .ok r
  | letter :: more, r =>
    if letter = 'o' then
      match r.rest with
      | [] =>
        let shown : Options := if starting then ShellOption.all else r.options
        letters starting on more { r with listings := r.listings ++ [shown.listing on] }
      | name :: rest =>
        match ShellOption.ofName? name with
        | some option =>
          letters starting on more { r with rest, options := r.options.put option on }
        | none => .error ("-o " ++ name)
    else if starting && letter = 'c' then letters starting on more { r with asText := true }
    else if starting && letter = 'l' then letters starting on more r
    else
      match ShellOption.ofLetter? letter with
      | some option => letters starting on more { r with options := r.options.put option on }
      | none => .error (String.ofList ['-', letter])

/-- Reads at most a number of arguments, as long as they are options. -/
def read (starting : Bool) : Nat → OptionReading → Except String OptionReading
  | 0, r => .ok r
  | n + 1, r =>
    match r.rest with
    | [] => .ok r
    | first :: rest =>
      match first.toList with
      | ['-'] =>
        let options :=
          if starting then r.options else (r.options.put .trace false).put .verbose false
        .ok { r with rest, options }
      | ['-', '-'] => .ok { r with rest, clears := !starting && rest.isEmpty }
      | '-' :: word => do read starting n (← letters starting true word { r with rest })
      | '+' :: word => do read starting n (← letters starting false word { r with rest })
      | _ => .ok r

end OptionReading

end GoldenRun.Shell
