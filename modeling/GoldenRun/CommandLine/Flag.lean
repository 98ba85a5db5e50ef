import GoldenRun.Fixture
import GoldenRun.Number.Numeral

/-!
# The flags and commands of the program

What can be written on the command line, declared once: the reader of arguments and the help pages
both go by these declarations.
-/

namespace GoldenRun.CommandLine

open GoldenRun.Number

/-- Which values a flag takes. -/
inductive Rule where
  /-- Any text. -/
  | anyText
  /-- One of some texts. -/
  | oneOf (choices : List String)
  /-- A whole number of milliseconds, not below zero. -/
  | milliseconds
  deriving DecidableEq, Repr

/-- The time that a text means, if it is a whole number of milliseconds and not below zero. -/
def milliseconds? (text : String) : Option Binary64 :=
  let time := readNumeral text
  if time.isWhole && !(time.isNegative && !time.isZero) then some time else none

namespace Rule

/-- What is wrong with a value. -/
def objection? (rule : Rule) (value : String) : Option String :=
  match rule with
  | .anyText => none
  | .oneOf choices =>
    if choices.contains value then none
    else some ("Allowed choices are " ++ ", ".intercalate choices ++ ".")
  | .milliseconds =>
    if (milliseconds? value).isSome then none
    else some "Expected a non-negative integer (milliseconds)."

end Rule

/-- A flag. -/
structure Flag where
  /-- Its letter. -/
  letter : Option Char := none
  /-- Its name. -/
  name : String
  /-- What its value is called, if it takes one. -/
  value : Option String := none
  /-- Whether it takes all the values that follow it. -/
  many : Bool := false
  /-- Which values it takes. -/
  rule : Rule := .anyText
  /-- What it does. -/
  description : String
  deriving DecidableEq, Repr

namespace Flag

/-- The flag written with its name. -/
def long (flag : Flag) : String := "--" ++ flag.name

/-- The flag written with its letter. -/
def short? (flag : Flag) : Option String := flag.letter.map fun c => String.ofList ['-', c]

/-- Whether an argument is this flag. -/
def isWritten (flag : Flag) (arg : String) : Bool := arg = flag.long || flag.short? = some arg

/-- The flag as the help shows it. -/
def shown (flag : Flag) : String :=
  (flag.short?.elim "" (· ++ ", ")) ++ flag.long ++
    flag.value.elim "" fun v => " <" ++ v ++ (if flag.many then "...>" else ">")

/-- What the help says of the flag. -/
def explanation (flag : Flag) : String :=
  match flag.rule with
  | .oneOf choices =>
    flag.description ++ " (choices: " ++
      ", ".intercalate (choices.map fun c => "\"" ++ c ++ "\"") ++ ")"
  | _ => flag.description

end Flag

/-- The flag that asks for the version. -/
def versionFlag : Flag where
  letter := some 'V'
  name := "version"
  description := "output the version number"

/-- The flag that asks for help. -/
def helpFlag : Flag where
  letter := some 'h'
  name := "help"
  description := "display help for command"

/-- The flag that names the root of the fixture tree. -/
def rootFlag : Flag where
  letter := some 'r'
  name := "root"
  value := some "path"
  description := "Override fixtures root"

/-- The flag that names the configuration file. -/
def configFlag : Flag where
  letter := some 'c'
  name := "config"
  value := some "path"
  description := "Harness config file (default: <root>/golden-trace.yml)"

/-- The flag that selects suites. -/
def suiteFlag : Flag where
  letter := some 's'
  name := "suite"
  value := some "names"
  many := true
  rule := .oneOf (Kind.all.map Kind.name)
  description := "Only run these suites, in the usual order"

/-- The flag that limits the time of each command. -/
def timeoutFlag : Flag where
  name := "timeout"
  value := some "ms"
  rule := .milliseconds
  description := "Kill any process running longer than this"

/-- The flag that asks for more to be told. -/
def verboseFlag : Flag where
  letter := some 'v'
  name := "verbose"
  description := "Echo every command and nonzero resolve output"

/-- The flag that selects a kind of fixture. -/
def kindFlag : Flag where
  letter := some 'k'
  name := "kind"
  value := some "kind"
  rule := .oneOf (Kind.all.map Kind.name)
  description := "Filter by fixture kind"

/-- The commands. -/
inductive Topic where
  /-- Runs suites. -/
  | run
  /-- Lists fixtures. -/
  | list
  /-- Shows the configuration. -/
  | config
  deriving DecidableEq, Repr

namespace Topic

/-- All commands. -/
def all : List Topic := [.run, .list, .config]

/-- The name of a command. -/
def name : Topic → String
  | .run => "run"
  | .list => "list"
  | .config => "config"

/-- The command of a name. -/
def ofName? (name : String) : Option Topic := all.find? (·.name = name)

/-- What a command does. -/
def description : Topic → String
  | .run => "Run the golden-output suites against a tool binary"
  | .list => "List fixtures and their expected-output files"
  | .config => "Print the effective harness configuration as YAML"

/-- The flags of a command. -/
def flags : Topic → List Flag
  | .run => [rootFlag, configFlag, suiteFlag, timeoutFlag, verboseFlag]
  | .list => [kindFlag, rootFlag]
  | .config => [configFlag, rootFlag]

/-- The arguments that a command needs, each with what it is. -/
def operands : Topic → List (String × String)
  | .run => [("tool", "Path to the tool binary under test")]
  | .list | .config => []

/-- How a command is called. -/
def usage (topic : Topic) : String :=
  topic.name ++ " [options]" ++ String.join (topic.operands.map fun o => " <" ++ o.1 ++ ">")

end Topic

/-- The name of the program. -/
def programName : String := "golden-trace"

/-- What the program is. -/
def programDescription : String :=
  "Golden-output regression harness for a trace resolve/replay tool"

/-- The version of the program. -/
def programVersion : String := "0.1.0"

/-- The flags of the program itself. -/
def programFlags : List Flag := [versionFlag]

/-- The name of the command that shows help. -/
def helpName : String := "help"

end GoldenRun.CommandLine
