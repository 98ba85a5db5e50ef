import GoldenRun.Shell.Fraction

/-!
# Formatted output

`unescape` reads the escapes of `echo`; `Format.read` reads the format of `printf`, and
`Format.write` lays arguments into it.  A format is used again as long as arguments are left, and
an argument that is missing counts as empty, or as zero.

An argument for a number is used as far as it is one; what is left of it is told, and so is a
number that does not fit.
-/

namespace GoldenRun.Shell

/-- The character that a letter stands for behind a backslash. -/
def letterEscape? : Char → Option Char
  | 'a' => some '\x07'
  | 'b' => some '\x08'
  | 'f' => some '\x0c'
  | 'n' => some '\n'
  | 'r' => some '\r'
  | 't' => some '\t'
  | 'v' => some '\x0b'
  | '\\' => some '\\'
  | _ => none

/-- Whether a character is an octal digit. -/
def isOctal (c : Char) : Bool := '0' ≤ c && c ≤ '7'

/-- The octet that up to three octal digits write, and what comes behind them. -/
def octalEscape (s : List Char) : Char × List Char :=
  let digits := (s.take 3).takeWhile isOctal
  (Char.ofNat ((Arithmetic.digits 8 0 digits).1 % 256), s.drop digits.length)

/-- What an escape in a format stands for, and what comes behind it; `s` is what comes behind the
backslash. -/
def formatEscape (s : List Char) : List Char × List Char :=
  match s with
  | [] => (['\\'], [])
  | c :: rest =>
    if isOctal c then
      let (octet, rest) := octalEscape s
      ([octet], rest)
    else match letterEscape? c with
      | some x => ([x], rest)
      | none => (['\\'], s)

/-- A text with its escapes read, and whether it ends all output. -/
def unescapeFrom : Nat → List Char → List Char × Bool
  | 0, s => (s, false)
  | _ + 1, [] => ([], false)
  | _ + 1, '\\' :: 'c' :: _ => ([], true)
  | n + 1, '\\' :: '0' :: rest =>
    let (octet, rest) := octalEscape rest
    let (s, ends) := unescapeFrom n rest
    (octet :: s, ends)
  | n + 1, '\\' :: rest =>
    let (x, rest) := formatEscape rest
    let (s, ends) := unescapeFrom n rest
    (x ++ s, ends)
  | n + 1, c :: rest =>
    let (s, ends) := unescapeFrom n rest
    (c :: s, ends)

/-- A text with its escapes read, and whether it ends all output. -/
def unescape (s : List Char) : List Char × Bool := unescapeFrom (s.length + 1) s

/-- What `echo` writes. -/
def echoText (args : List String) : List Char :=
  let (newline, args) := match args with
    | "-n" :: rest => (false, rest)
    | _ => (true, args)
  let line := (" ".intercalate args).toList
  let (text, ends) := unescape line
  if newline && !ends then text ++ ['\n'] else text

/-- A width or a precision. -/
inductive Extent where
  /-- A number. -/
  | fixed (n : Nat)
  /-- The next argument. -/
  | argument
  deriving DecidableEq, Repr

/-- A place for an argument. -/
structure Place where
  /-- How the place is written, as far as the letter for its kind. -/
  written : List Char
  /-- The flags. -/
  flags : List Char
  /-- The least count of characters. -/
  width : Option Extent
  /-- The count of digits, or the greatest one of characters. -/
  precision : Option Extent
  /-- The letter for the kind of argument. -/
  kind : Char
  deriving DecidableEq, Repr

/-- A part of a format. -/
inductive Directive where
  /-- Text. -/
  | text (s : List Char)
  /-- A place for an argument. -/
  | place (place : Place)
  /-- A place that is cut off by the end of the format. -/
  | unfinished
  deriving DecidableEq, Repr

namespace Format

/-- The extent that is next, and what comes behind it. -/
def extent? (s : List Char) : Option Extent × List Char :=
  match s with
  | '*' :: rest => (some .argument, rest)
  | _ =>
    let digits := s.takeWhile Char.isDigit
    (if digits = [] then none else some (.fixed (Arithmetic.digits 10 0 digits).1),
      s.drop digits.length)

/-- The place behind a percent sign, and what comes behind it. -/
def place? (s : List Char) : Option (Place × List Char) :=
  let flags := s.takeWhile "-+ #0".toList.contains
  let (width, rest) := extent? (s.drop flags.length)
  let (precision, rest) := match rest with
    | '.' :: rest =>
      let (p, rest) := extent? rest
      (some (p.getD (.fixed 0)), rest)
    | _ => (none, rest)
  match rest with
  | kind :: rest =>
    let written := '%' :: s.take (s.length - rest.length)
    some ({ written, flags, width, precision, kind }, rest)
  | [] => none

/-- Reads a format. -/
def read : Nat → List Char → List Directive
  | 0, _ => []
  | _ + 1, [] => []
  | n + 1, '\\' :: rest =>
    let (x, rest) := formatEscape rest
    .text x :: read n rest
  | n + 1, '%' :: '%' :: rest => .text ['%'] :: read n rest
  | n + 1, '%' :: rest =>
    match place? rest with
    | some (place, rest) => .place place :: read n rest
    | none => [.unfinished]
  | n + 1, c :: rest => .text [c] :: read n rest

/-- What has been written so far. -/
structure State where
  /-- The arguments that are left. -/
  args : List String
  /-- The text, in pieces, the last in front. -/
  pieces : List (List Char) := []
  /-- What is wrong with the arguments. -/
  complaints : List String := []
  /-- What is wrong with the format. -/
  defect : Option String := none
  /-- Whether all output has ended. -/
  ended : Bool := false

/-- Writes a text. -/
def State.put (t : List Char) (s : State) : State := { s with pieces := t :: s.pieces }

/-- The next argument. -/
def State.next (s : State) : String × State :=
  match s.args with
  | a :: rest => (a, { s with args := rest })
  | [] => ("", s)

/-- What is wrong with an argument for a number: `rest` is what comes behind the number, if there
is one. -/
def complaint (arg : String) (rest : Option (List Char)) (inRange : Bool) : Option String :=
  if arg = "" then none
  else match rest with
    | none => some (arg ++ ": expected numeric value")
    | some (_ :: _) => some (arg ++ ": not completely converted")
    | some [] => if inRange then none else some (arg ++ ": Numerical result out of range")

/-- The code of the character behind a quote, for an argument that begins with one. -/
def quotedCode? (arg : String) : Option Nat :=
  match arg.toList with
  | c :: rest => if c = '\'' || c = '"' then some ((rest.head?.map Char.toNat).getD 0) else none
  | [] => none

/-- The next argument as a whole number: one with a sign, or one of sixty-four bits without. -/
def State.nextWhole (signed : Bool) (s : State) : Int × State :=
  let (arg, s) := s.next
  match quotedCode? arg with
  | some code => (code, s)
  | none =>
    let found := Arithmetic.leading Arithmetic.numeral? arg.toList
    let exact := (found.map (·.1)).getD 0
    let top : Int := 0xffffffffffffffff
    let value :=
      if signed then max Arithmetic.least (min Arithmetic.greatest exact)
      else if exact < -top || top < exact then top
      else exact
    let inRange := if signed then Arithmetic.fits exact else -top ≤ exact && exact ≤ top
    let told := complaint arg (found.map (·.2)) inRange
    (value, { s with complaints := s.complaints ++ told.toList })

/-- The next argument as a number with a fraction: whether it has a minus sign, and the number
without it. -/
def State.nextFraction (s : State) : (Bool × Number.Binary64) × State :=
  let (arg, s) := s.next
  match quotedCode? arg with
  | some code => ((false, .ofNat code), s)
  | none =>
    match Fraction.read arg.toList with
    | some r =>
      let told := complaint arg (some r.rest) r.inRange
      ((r.negative, r.magnitude), { s with complaints := s.complaints ++ told.toList })
    | none =>
      let told := complaint arg none true
      ((false, .zero false), { s with complaints := s.complaints ++ told.toList })

/-- The digits of a number. -/
def digitsOf (base : Nat) (capitals : Bool) (n : Nat) : List Char :=
  (Nat.toDigits base n).map fun c => if capitals then c.toUpper else c

/-- A text made as wide as it has to be. -/
def pad (left : Bool) (width : Nat) (s : List Char) : List Char :=
  let blanks := List.replicate (width - s.length) ' '
  if left then s ++ blanks else blanks ++ s

/-- Digits made as many as they have to be; zero has none if it need not have any. -/
def lengthen (precision : Option Nat) (digits : List Char) : List Char :=
  if precision = some 0 ∧ digits = ['0'] then []
  else Fraction.zeroed (precision.getD 0) digits

/-- Digits behind a sign or a mark, made as wide as they have to be; `zeros` says that zeros between
the two can do it. -/
def padNumber (flags : List Char) (zeros : Bool) (width : Nat) (sign digits : List Char) :
    List Char :=
  let digits :=
    if zeros && flags.contains '0' && !flags.contains '-' then
      Fraction.zeroed (width - sign.length) digits
    else digits
  pad (flags.contains '-') width (sign ++ digits)

/-- The sign of a number. -/
def signOf (flags : List Char) (negative : Bool) : List Char :=
  if negative then ['-']
  else if flags.contains '+' then ['+']
  else if flags.contains ' ' then [' ']
  else []

/-- The value of an extent. -/
def extentValue (e : Option Extent) (s : State) : Option Int × State :=
  match e with
  | none => (none, s)
  | some (.fixed n) => (some n, s)
  | some .argument =>
    let (n, s) := s.nextWhole true
    (some (n.bmod 0x100000000), s)

/-- Writes an argument into a place that wants a whole number. -/
def writeWhole (flags : List Char) (width : Nat) (precision : Option Nat) (kind : Char)
    (s : State) : State :=
  let signed := kind = 'd' || kind = 'i'
  let (n, s) := s.nextWhole signed
  let unsigned := (Arithmetic.bits n).toNat
  let full := flags.contains '#'
  let put (sign digits : List Char) : State :=
    s.put (padNumber flags precision.isNone width sign digits)
  match kind with
  | 'u' => put [] (lengthen precision (digitsOf 10 false unsigned))
  | 'o' =>
    let digits := lengthen precision (digitsOf 8 false unsigned)
    put [] (if full && digits.head? ≠ some '0' then '0' :: digits else digits)
  | 'x' | 'X' =>
    put (if full && unsigned ≠ 0 then ['0', kind] else [])
      (lengthen precision (digitsOf 16 (kind = 'X') unsigned))
  | _ => put (signOf flags (n < 0)) (lengthen precision (digitsOf 10 false n.natAbs))

/-- Writes an argument into a place that wants a number with a fraction. -/
def writeFraction (flags : List Char) (width : Nat) (precision : Option Nat) (kind : Char)
    (s : State) : State :=
  let ((negative, x), s) := s.nextFraction
  let style : Fraction.Style :=
    { kind := kind.toLower, capitals := kind.isUpper, full := flags.contains '#', precision }
  let (mark, text) := Fraction.write style x
  s.put (padNumber flags x.isFinite width (signOf flags negative ++ mark) text)

/-- Writes an argument into a place. -/
def writePlace (s : State) (place : Place) : State :=
  let (w, s) := extentValue place.width s
  let (p, s) := extentValue place.precision s
  let flags := if w.any (· < 0) then '-' :: place.flags else place.flags
  let w := (w.map Int.natAbs).getD 0
  let p := p.bind fun p => if p < 0 then none else some p.toNat
  let cut (t : List Char) : List Char := p.elim t t.take
  let left := flags.contains '-'
  match place.kind with
  | 's' =>
    let (a, s) := s.next
    s.put (pad left w (cut a.toList))
  | 'c' =>
    let (a, s) := s.next
    s.put (pad left w [a.toList.headD '\x00'])
  | 'b' =>
    let (a, s) := s.next
    let (t, ends) := unescape a.toList
    { s.put (pad left w (cut t)) with ended := ends }
  | kind =>
    if "diouxX".toList.contains kind then writeWhole flags w p kind s
    else if "aAeEfFgG".toList.contains kind then writeFraction flags w p kind s
    else
      { s with
        defect := some (String.ofList place.written ++ ": invalid directive"), ended := true }

/-- Writes one part of a format. -/
def writeOne (s : State) (d : Directive) : State :=
  if s.ended then s
  else match d with
    | .text t => s.put t
    | .unfinished => { s with defect := some "missing format character", ended := true }
    | .place place => writePlace s place

/-- Writes a format again and again, until no argument is left. -/
def writeAll (directives : List Directive) : Nat → State → State
  | 0, s => s
  | n + 1, s =>
    let t := directives.foldl writeOne s
    if t.ended || t.args.isEmpty || t.args.length = s.args.length then t
    else writeAll directives n t

/-- What `printf` writes. -/
structure Result where
  /-- The text. -/
  text : List Char
  /-- What is wrong with the arguments. -/
  complaints : List String
  /-- What is wrong with the format. -/
  defect : Option String

/-- Lays arguments into a format. -/
def write (format : String) (args : List String) : Result :=
  let directives := read (format.length + 1) format.toList
  let s := writeAll directives (args.length + 1) { args }
  ⟨s.pieces.reverse.flatten, s.complaints, s.defect⟩

end Format

end GoldenRun.Shell
