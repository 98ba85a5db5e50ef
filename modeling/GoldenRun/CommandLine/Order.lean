import GoldenRun.CommandLine.Arguments

/-!
# What a command line asks for

The first operand names a command; where it does not, the command is `run`.  Of the program's own
flags, the one for the version counts wherever it stands.
-/

namespace GoldenRun.CommandLine

open GoldenRun.Number

/-- How suites are to be run. -/
structure RunOrder where
  /-- The tool. -/
  tool : String
  /-- The root of the fixture tree. -/
  root : Option String := none
  /-- The configuration file. -/
  config : Option String := none
  /-- The suites. -/
  suites : Option (List Kind) := none
  /-- The time limit of each command. -/
  timeout : Option Binary64 := none
  /-- Whether to tell more. -/
  verbose : Bool := false
  deriving DecidableEq, Repr

/-- What a command line asks for. -/
inductive Order where
  /-- To run suites. -/
  | run (order : RunOrder)
  /-- To list fixtures. -/
  | list (kind : Option Kind) (root : Option String)
  /-- To show the configuration. -/
  | config (root file : Option String)
  /-- To show a help page; it may be the answer to a mistake. -/
  | help (topic : Option Topic) (mistaken : Bool)
  /-- To show the version. -/
  | version
  /-- Nothing that can be done. -/
  | refused (fault : UsageFault)
  deriving DecidableEq, Repr

namespace Order

/-- The order that an interruption means. -/
def ofInterruption : Interruption → Order
  | .version => .version
  | .fault fault => .refused fault

/-- The order for a command with arguments that have no fault. -/
def ofArguments (topic : Topic) (operands : List String) (a : Arguments) : Order :=
  match topic with
  | .run =>
    match operands with
    | [] => .refused (.missingOperand "tool")
    | tool :: _ =>
      let suites := (a.values suiteFlag).filterMap Kind.ofName?
      .run
        { tool
          root := a.value? rootFlag
          config := a.value? configFlag
          suites := if suites.isEmpty then none else some suites
          timeout := (a.value? timeoutFlag).bind milliseconds?
          verbose := (a.value? verboseFlag).isSome }
  | .list => .list ((a.value? kindFlag).bind Kind.ofName?) (a.value? rootFlag)
  | .config => .config (a.value? rootFlag) (a.value? configFlag)

/-- The order for a command, with operands and with arguments that are still to be read. -/
def ofTopic (topic : Topic) (operands unread : List String) : Order :=
  match Arguments.read topic.flags unread with
  | .error interruption => ofInterruption interruption
  | .ok a =>
    if a.unknown.any helpFlag.isWritten then .help (some topic) false
    else match a.unknown with
      | arg :: _ =>
        let known := topic.flags ++ helpFlag :: programFlags
        .refused (.unknownFlag arg (flagSuggestions arg known))
      | [] => ofArguments topic (operands ++ a.operands) a

/-- The order for help about something. -/
def ofHelp : Option String → Order
  | none => .help none false
  | some name =>
    if name = "" then .help none false
    else match Topic.ofName? name with
      | some topic => .help (some topic) false
      | none => .help none true

/-- What a command line asks for. -/
def read (args : List String) : Order :=
  match Arguments.read programFlags args with
  | .error interruption => ofInterruption interruption
  | .ok a =>
    let byDefault : Order :=
      if a.unknown.any helpFlag.isWritten then .help none false
      else ofTopic .run a.operands a.unknown
    match a.operands with
    | [] => byDefault
    | name :: operands =>
      match Topic.ofName? name with
      | some topic => ofTopic topic operands a.unknown
      | none => if name = helpName then ofHelp operands.head? else byDefault

end Order

end GoldenRun.CommandLine
