/-!
# Signals

The signals that can end a program, by name and number, and the two ways in which a program ends.
-/

namespace GoldenRun

/-- A signal, by its number. -/
structure Signal where
  /-- The number. -/
  number : Nat
  deriving DecidableEq, Repr

namespace Signal

/-- The names of the signals, without the first three letters that all of them share. -/
def names : List (Nat × String) :=
  [(1, "HUP"), (2, "INT"), (3, "QUIT"), (4, "ILL"), (5, "TRAP"), (6, "ABRT"), (7, "BUS"),
    (8, "FPE"), (9, "KILL"), (10, "USR1"), (11, "SEGV"), (12, "USR2"), (13, "PIPE"), (14, "ALRM"),
    (15, "TERM"), (16, "STKFLT"), (17, "CHLD"), (18, "CONT"), (19, "STOP"), (20, "TSTP"),
    (21, "TTIN"), (22, "TTOU"), (23, "URG"), (24, "XCPU"), (25, "XFSZ"), (26, "VTALRM"),
    (27, "PROF"), (28, "WINCH"), (29, "IO"), (30, "PWR"), (31, "SYS")]

/-- The signal that interrupts what is being done. -/
def interrupt : Signal := ⟨2⟩

/-- The signal that kills without fail. -/
def kill : Signal := ⟨9⟩

/-- The signal for one who uses what is not there. -/
def badAccess : Signal := ⟨11⟩

/-- The signal that asks to end. -/
def term : Signal := ⟨15⟩

/-- The signal that tells of the end of a child. -/
def childEnded : Signal := ⟨17⟩

/-- The signals that do not reach programs in the background. -/
def fromKeyboard : List Signal := [interrupt, ⟨3⟩]

/-- The name without its first three letters. -/
def shortName (signal : Signal) : String :=
  ((names.find? (·.1 = signal.number)).map (·.2)).getD (toString signal.number)

/-- The name of a signal. -/
def name (signal : Signal) : String := "SIG" ++ signal.shortName

/-- Whether a program that does not care about a signal goes on. -/
def isHarmless (signal : Signal) : Bool := [0, 17, 18, 23, 28].contains signal.number

/-- What a shell says of a program that a signal has killed; of some it says nothing. -/
def notice? (signal : Signal) : Option String :=
  let known := [(1, "Hangup"), (3, "Quit"), (4, "Illegal instruction"),
    (5, "Trace/breakpoint trap"), (6, "Aborted"), (7, "Bus error"),
    (8, "Floating point exception"), (9, "Killed"), (10, "User defined signal 1"),
    (11, "Segmentation fault"), (12, "User defined signal 2"), (14, "Alarm clock"),
    (15, "Terminated")]
  (known.find? (·.1 = signal.number)).map (·.2)

/-- Whether a signal stops a program without ending it. -/
def stops (signal : Signal) : Bool := [19, 20, 21, 22].contains signal.number

end Signal

/-- How a program ends. -/
inductive Ending where
  /-- By itself, with a code below 256. -/
  | exited (code : Nat)
  /-- By a signal. -/
  | killed (signal : Signal)
  deriving DecidableEq, Repr

/-- The status that a shell sees. -/
def Ending.status : Ending → Nat
  | .exited code => code
  | .killed signal => 128 + signal.number

end GoldenRun
