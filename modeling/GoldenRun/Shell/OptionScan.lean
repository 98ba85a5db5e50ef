/-!
# Going through options

A script goes through the options of its arguments one at a time.  A list of letters says which
options there are, and a colon behind a letter that the option takes an argument: what stands
behind the letter or, where nothing does, the next argument.  If the list begins with a colon,
mistakes are told through the name of the option and not by a complaint.
-/

namespace GoldenRun.Shell

/-- How far the options of some arguments have been gone through. -/
structure OptionScan where
  /-- The number of the next argument, from 1. -/
  index : Nat := 1
  /-- How many characters of the argument before it have been read, if it can hold more options. -/
  within : Option Nat := none
  deriving DecidableEq, Repr, Inhabited

/-- What becomes of the argument of an option. -/
inductive OptionArgument where
  /-- The one before stays. -/
  | kept
  /-- There is none. -/
  | none
  /-- There is one. -/
  | given (text : String)
  deriving DecidableEq, Repr

/-- What the next option comes to. -/
structure OptionStep where
  /-- How far the arguments have been gone through. -/
  scan : OptionScan
  /-- What the option is called. -/
  name : Char := '?'
  /-- Its argument. -/
  argument : OptionArgument := .kept
  /-- A complaint. -/
  complaint : Option String := Option.none
  /-- Whether there was no option. -/
  done : Bool := false
  deriving DecidableEq, Repr

namespace OptionScan

/-- What stands behind the letter of an option in a list. -/
def listed? (c : Char) : List Char → Option (List Char)
  | [] => none
  | x :: ':' :: rest => if x = c then some (':' :: rest) else listed? c rest
  | x :: rest => if x = c then some rest else listed? c rest

/-- What is left of the argument that was begun. -/
def pending (scan : OptionScan) (args : List String) : List Char :=
  match scan.index, scan.within with
  | i + 2, some n => (args[i]?.map fun a => a.toList.drop n).getD []
  | _, _ => []

/-- The next option, whose letter and what follows it are given. -/
def take (letters : List Char) (args : List String) (index : Nat) (c : Char) (rest : List Char) :
    OptionStep :=
  let silent := letters.head? = some ':'
  let consumed := ((args[index - 2]?.getD "").length - rest.length)
  let here : OptionScan := ⟨index, some consumed⟩
  match listed? c letters with
  | none =>
    if silent then { scan := here, argument := .given (String.ofList [c]) }
    else
      { scan := here, argument := .none
        complaint := some ("Illegal option -" ++ String.ofList [c]) }
  | some (':' :: _) =>
    match rest, args[index - 1]? with
    | [], none =>
      if silent then
        { scan := ⟨index, none⟩, name := ':', argument := .given (String.ofList [c]) }
      else
        { scan := ⟨index, none⟩, argument := .none
          complaint := some ("No arg for -" ++ String.ofList [c] ++ " option") }
    | [], some text => { scan := ⟨index + 1, none⟩, name := c, argument := .given text }
    | rest, _ => { scan := ⟨index, none⟩, name := c, argument := .given (String.ofList rest) }
  | some _ => { scan := here, name := c, argument := .given "" }

/-- The next option. -/
def next (scan : OptionScan) (letters : List Char) (args : List String) : OptionStep :=
  let scan := if args.length + 1 < scan.index then {} else scan
  match scan.pending args with
  | c :: rest => take letters args scan.index c rest
  | [] =>
    match (args[scan.index - 1]?.map String.toList) with
    | some ('-' :: c :: rest) =>
      if c = '-' && rest.isEmpty then { scan := ⟨scan.index + 1, none⟩, done := true }
      else take letters args (scan.index + 1) c rest
    | _ => { scan := ⟨scan.index, none⟩, done := true }

end OptionScan

end GoldenRun.Shell
