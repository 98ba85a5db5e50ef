import GoldenRun.Execution.Basic
import GoldenRun.Text.Utf8

/-!
# From the news of a command to its answer

A command that was asked for sends notices: the pieces of its output as they arrive, and how it
ended.  A `Watch` is what is known of the command so far, and `Watch.hear` is what one more notice
changes.  The first notice that is not a piece of output makes the answer, with the bytes that came
before; an answer that is there is kept, whatever comes later.  The bytes are read as text only when
all of them are there, so it does not matter how they were cut into pieces.

A time limit arms a timer.  A timer keeps no delay above `longestDelay`: a longer one is replaced
by the shortest.
-/

namespace GoldenRun

open GoldenRun.Number GoldenRun.Text

/-- News of a command. -/
inductive Notice where
  /-- It wrote something, to either stream. -/
  | wrote (bytes : Bytes)
  /-- It could not be started. -/
  | failed (reason : String)
  /-- It ended, and nobody can write to its streams any more. -/
  | closed (exitCode : Option Int) (signal : Option String)
  /-- Its time is up. -/
  | expired
  deriving DecidableEq, Repr

/-- The longest delay that a timer keeps, in milliseconds. -/
def longestDelay : Nat := 2147483647

/-- The delay of the timer that a time limit arms, in whole milliseconds; zero, a negative limit
and none arm no timer. -/
def killDelay? : Option Binary64 → Option Nat
  | some (.finite false m e _) =>
    if m = 0 then none
    else
      let parts := Nat.pow 2 (-e).toNat
      let whole := if 0 ≤ e then m * Nat.pow 2 e.toNat else m / parts
      let beyond := longestDelay < whole ∨ (whole = longestDelay ∧ e < 0 ∧ m % parts ≠ 0)
      some (if whole = 0 ∨ beyond then 1 else whole)
  | some (.infinity false) => some 1
  | _ => none

/-- What is known of a command that was asked for. -/
structure Watch where
  /-- The pieces of its output that have arrived, the last of them in front. -/
  pieces : List Bytes := []
  /-- The delay of the timer that is armed, if there is one. -/
  timer : Option Nat := none
  /-- Whether a timer has run out. -/
  timedOut : Bool := false
  /-- The answer, once there is one. -/
  answer : Option Captured := none
  deriving DecidableEq, Repr

namespace Watch

/-- The watch over a request of which nothing has been heard. -/
def start (request : Request) : Watch := { timer := killDelay? request.timeout }

/-- All that has arrived, as text. -/
def text (w : Watch) : String := decode w.pieces.reverse.flatten

/-- Answers, unless there is an answer, and takes the timer down. -/
def finish (w : Watch) (output : Captured) : Watch :=
  if w.answer.isSome then w else { w with timer := none, answer := some output }

/-- Hears a notice of a command.  Without a timer no time can be up. -/
def hear (command : String) (w : Watch) : Notice → Watch
  | .wrote bytes => { w with pieces := bytes :: w.pieces }
  | .expired =>
    if w.timer.isSome then
      let w := { w with timer := none, timedOut := true }
      w.finish
        { text := w.text, exitCode := none, signal := some "SIGKILL", timedOut := w.timedOut }
    else w
  | .failed reason =>
    let message := command ++ ": " ++ reason
    w.finish
      { text := w.text ++ message ++ "\n", exitCode := none, timedOut := w.timedOut
        error := some message }
  | .closed exitCode signal =>
    w.finish { text := w.text, exitCode, signal, timedOut := w.timedOut }

end Watch

/-- The answer to a request of which some notices were heard; none while it has not ended. -/
def settle (request : Request) (notices : List Notice) : Option Captured :=
  (notices.foldl (Watch.hear request.command) (.start request)).answer

end GoldenRun
