import GoldenRun.Disk.Basic
import GoldenRun.Execution.Signal
import GoldenRun.Text.Octets

/-!
# A machine

A machine has a disk, a clock that counts microseconds, and the programs that run on it.  Programs
write to channels; what reaches the common output is kept with the time at which it was written.

Programs that run side by side are carried out one after the other, each on a clock of its own that
starts at the moment it was started.  A `Child` says when it ended; waiting for it moves the clock
to that moment.  So the times are right although nothing is interleaved.  A signal to a program that
has not come so far yet is kept with its time until the program gets there.

A machine stops at its deadline.  It also stops when its budget of steps is used up, so every
program comes to an end.
-/

namespace GoldenRun

open GoldenRun.Text

/-- What a descriptor of a program leads to. -/
inductive Channel where
  /-- Nothing: nothing can be read, and what is written is lost. -/
  | nowhere
  /-- The common output. -/
  | output
  /-- A file, written at its end. -/
  | file (location : Location)
  /-- A buffer, by its number. -/
  | buffer (number : Nat)
  deriving DecidableEq, Repr

/-- A piece of output. -/
structure Written where
  /-- When it was written. -/
  time : Nat
  /-- The number of the program that wrote it. -/
  writer : Nat
  /-- What was written. -/
  bytes : Bytes
  deriving DecidableEq, Repr

/-- Bytes on the way from one program to another. -/
structure Buffer where
  /-- The pieces that were written, the last to be carried out in front. -/
  pieces : List Written := []
  /-- When it is clear that no piece is missing; none is never. -/
  ready : Option Nat := some 0
  deriving DecidableEq, Repr

/-- A buffer with bytes that were there from the beginning. -/
def Buffer.ofBytes (bytes : Bytes) : Buffer := { pieces := [⟨0, 0, bytes⟩] }

/-- Some pieces in the order in which they were written, of which the last one stands in front of
those that were carried out before. -/
def Written.inOrder (pieces : List Written) : List Written :=
  pieces.reverse.mergeSort fun a b => a.time ≤ b.time

/-- Pieces without their first bytes. -/
def Written.drop : Nat → List Written → List Written
  | _, [] => []
  | n, w :: rest =>
    if n < w.bytes.length then { w with bytes := w.bytes.drop n } :: rest
    else Written.drop (n - w.bytes.length) rest

/-- When the first line of some pieces is there as a whole. -/
def Written.lineTime? : List Written → Option Nat
  | [] => none
  | w :: rest => if w.bytes.contains 10 then some w.time else Written.lineTime? rest

/-- A program that another one has started. -/
structure Child where
  /-- Its number. -/
  number : Nat
  /-- The number of the program that started it. -/
  parent : Nat
  /-- When it was started. -/
  began : Nat
  /-- How it ends. -/
  ending : Ending
  /-- When it ends; none is never. -/
  ends : Option Nat
  /-- The channels that it can write to. -/
  holds : List Channel
  /-- The signals that it does not care about. -/
  ignores : List Signal
  deriving DecidableEq, Repr

/-- A signal on its way. -/
structure SentSignal where
  /-- When it was sent. -/
  time : Nat
  /-- The number of the program that sent it, or of which it tells. -/
  sender : Nat
  /-- The number of the program that is to receive it. -/
  target : Nat
  /-- The signal. -/
  signal : Signal
  deriving DecidableEq, Repr

/-- The number of the first program. -/
def Machine.firstNumber : Nat := 4242

/-- The microseconds that a program needs to make a copy of itself. -/
def Machine.copyCost : Nat := 100

/-- The microseconds after which a copy of a program begins. -/
def Machine.copyDelay : Nat := 300

/-- The microseconds after which a program begins that takes the place of another one. -/
def Machine.loadDelay : Nat := 500

/-- The microseconds after which a program knows that one it waits for has ended. -/
def Machine.noticeDelay : Nat := 250

/-- A disk, a clock and running programs. -/
structure Machine where
  /-- The disk. -/
  disk : Disk
  /-- The microseconds that have passed. -/
  clock : Nat := 0
  /-- When everything is stopped; none is never. -/
  deadline : Option Nat := none
  /-- How many more steps can be made. -/
  budget : Nat := 2000000
  /-- The common output, its last piece in front. -/
  written : List Written := []
  /-- The programs that are being carried out, each one started by the next. -/
  running : List Nat := []
  /-- The buffers. -/
  buffers : List Buffer := []
  /-- The programs that were started, the last to be carried out in front. -/
  started : List Child := []
  /-- The signals that are on their way. -/
  sent : List SentSignal := []
  /-- The number of the next program. -/
  nextNumber : Nat := Machine.firstNumber
  deriving Repr

namespace Machine

/-- The machine at a later moment; none when that is past its deadline. -/
def advanceTo (m : Machine) (time : Nat) : Option Machine :=
  match m.deadline with
  | some d => if d ≤ max m.clock time then none else some { m with clock := max m.clock time }
  | none => some { m with clock := max m.clock time }

/-- One step; none when the budget is used up or the deadline has come. -/
def tick (m : Machine) : Option Machine :=
  match m.budget with
  | 0 => none
  | n + 1 => { m with budget := n }.advanceTo (m.clock + 1)

/-- A new buffer. -/
def addBuffer (m : Machine) (buffer : Buffer) : Nat × Machine :=
  (m.buffers.length, { m with buffers := m.buffers ++ [buffer] })

/-- What a buffer holds, in order. -/
def bufferPieces (m : Machine) (number : Nat) : List Written :=
  Written.inOrder ((m.buffers[number]?).getD {}).pieces

/-- What a buffer holds. -/
def bufferBytes (m : Machine) (number : Nat) : Bytes :=
  (m.bufferPieces number).flatMap (·.bytes)

/-- The machine with another content of a buffer. -/
def setBuffer (m : Machine) (number : Nat) (buffer : Buffer) : Machine :=
  { m with buffers := m.buffers.set number buffer }

/-- Writes to a channel. -/
def write (m : Machine) (channel : Channel) (bytes : Bytes) : Machine :=
  match channel with
  | .nowhere => m
  | .output => { m with written := ⟨m.clock, m.running.headD 0, bytes⟩ :: m.written }
  | .buffer n =>
    match m.buffers[n]? with
    | some b =>
      m.setBuffer n { b with pieces := ⟨m.clock, m.running.headD 0, bytes⟩ :: b.pieces }
    | none => m
  | .file location =>
    match m.disk.get? location with
    | some (.file old executable) =>
      { m with disk := m.disk.put location (.file (old ++ bytes) executable) }
    | _ => m

/-- The pieces that can be read from a channel, and when it is clear that no piece is missing. -/
def readable (m : Machine) (channel : Channel) : List Written × Option Nat :=
  match channel with
  | .buffer n => (m.bufferPieces n, ((m.buffers[n]?).getD {}).ready)
  | _ => ([], some 0)

/-- The machine with other pieces to be read from a channel. -/
def leave (m : Machine) (channel : Channel) (rest : List Written) : Machine :=
  match channel with
  | .buffer n =>
    match m.buffers[n]? with
    | some b => m.setBuffer n { b with pieces := rest.reverse }
    | none => m
  | _ => m

/-- When no program that was started can write to a channel any more, if one that can is done at
the given moment; none is never. -/
def closes (m : Machine) (channel : Channel) (time : Option Nat) : Option Nat :=
  m.started.foldl (fun time child =>
    if child.holds.contains channel then time.bind fun t => child.ends.map (max t) else time) time

/-- The programs that a program has started after the moment of the clock, and all that came of
them. -/
def startedLater (m : Machine) (number : Nat) : List Nat :=
  m.started.foldl (fun later child =>
    if later.contains child.parent || (child.parent = number && m.clock < child.began) then
      child.number :: later
    else later) []

/-- Kills a program that still runs: it does nothing more from now on.  What it has started goes
on. -/
def kill (m : Machine) (victim : Child) (signal : Signal) : Machine :=
  let later := m.startedLater victim.number
  let isKept (number time : Nat) : Bool :=
    !later.contains number && (number ≠ victim.number || time ≤ m.clock)
  let notice : SentSignal := ⟨m.clock, victim.number, victim.parent, .childEnded⟩
  { m with
    started := (m.started.filter (!later.contains ·.number)).map fun child =>
      if child.number = victim.number then
        { child with ends := some m.clock, ending := .killed signal }
      else child
    written := m.written.filter fun w => isKept w.writer w.time
    buffers := m.buffers.map fun b =>
      { b with pieces := b.pieces.filter fun w => isKept w.writer w.time }
    sent := notice :: m.sent.filter fun s => isKept s.sender s.time }

/-- The signals that reach a program up to a moment, the earliest in front. -/
def signalsUntil (m : Machine) (number : Nat) (time : Option Nat) : List SentSignal :=
  (m.sent.filter fun s => s.target = number && time.all (s.time ≤ ·)).mergeSort fun a b =>
    a.time ≤ b.time

/-- The pieces of the common output in the order in which they were written. -/
def outputPieces (m : Machine) : List Bytes := (Written.inOrder m.written).map (·.bytes)

/-- When nobody can write to the common output any more, if it was closed here at the time of the
clock; none is never. -/
def outputEnds (m : Machine) : Option Nat := m.closes .output (some m.clock)

end Machine

end GoldenRun
