import GoldenRun.Shell.State

/-!
# Commands of the shell itself

A command that a shell carries out itself answers with its status.  When it gives up it complains in
its own name; a special one then ends the shell.

Options stand before the other arguments, several of them perhaps behind one hyphen.
-/

namespace GoldenRun.Shell

/-- A command of the shell itself: its arguments, and its status. -/
abbrev Builtin := List String → Task Nat

/-- A text between single quotes; single quotes in it stand between double ones. -/
def quoted (text : String) : String := String.ofList (go (text.length + 1) text.toList)
where
  /-- The parts of a text one after the other, at least one. -/
  go : Nat → List Char → List Char
    | 0, _ => []
    | n + 1, text =>
      let plain := text.takeWhile (· ≠ '\'')
      let quotes := (text.drop plain.length).takeWhile (· = '\'')
      let rest := text.drop (plain.length + quotes.length)
      ['\''] ++ plain ++ ['\''] ++
        if quotes = [] then []
        else ['"'] ++ quotes ++ ['"'] ++ if rest = [] then [] else go n rest

namespace Builtin

/-- Takes the options at the beginning of some arguments; a colon behind a letter of `known` says
that the option has an argument.  What is left are the other arguments. -/
def options (known : String) (args : List String) : Task (List (Char × String) × List String) :=
  go (args.length + (String.join args).length + 1) {} []
where
  /-- Goes on behind the options that were taken, the last of them in front. -/
  go : Nat → OptionScan → List (Char × String) → Task (List (Char × String) × List String)
    | 0, scan, taken => return (taken.reverse, args.drop (scan.index - 1))
    | n + 1, scan, taken => do
      let step := scan.next known.toList args
      match step.complaint, step.argument with
      | some complaint, _ => Task.giveUp complaint
      | none, .given text =>
        if step.done then return (taken.reverse, args.drop (step.scan.index - 1))
        go n step.scan ((step.name, text) :: taken)
      | none, _ => return (taken.reverse, args.drop (step.scan.index - 1))

/-- Takes no options, but a mark that ends them. -/
def operands (args : List String) : Task (List String) := do return (← options "" args).2

/-- The status that an argument asks for; without one, that of the last command. -/
def statusArgument (args : List String) : Task Nat := do
  match args with
  | [] => return (← Task.shell).status
  | text :: _ => Task.number text

/-- Writes texts in the order of the places that their names have in a table with some rows: that
of the sum of the characters, where the first one counts sixteen times more. -/
def inTable {α : Type} (rows : Nat) (items : List (String × α)) : List (String × α) :=
  let row (name : String) : Nat :=
    let codes := name.toList.map Char.toNat
    (codes.headD 0 * 16 + codes.foldl (· + ·) 0) % rows
  items.mergeSort fun a b => decide (row a.1 ≤ row b.1)

end Builtin

end GoldenRun.Shell
