/-!
# Bytes and text

Files and captured output are bytes; everything else is text.  `encode` writes a text as UTF-8.
`decode` never fails: every maximal ill-formed piece becomes one U+FFFD, and a byte order mark is
kept as a character.

The decoder is a machine that reads one byte at a time.  Between characters it waits for a lead
byte; inside one it knows how many continuation bytes are owed and which range the next must lie
in.  A byte outside that range ends the unfinished character and is then read afresh.
-/

namespace GoldenRun.Text

/-- The bytes of a text. -/
abbrev Bytes := List UInt8

/-- The character that stands for an ill-formed piece. -/
def replacement : Char := '\uFFFD'

/-- A character of which some bytes are still owed. -/
structure Unfinished where
  /-- How many continuation bytes are owed. -/
  owed : Nat
  /-- The least value of the next one. -/
  low : Nat
  /-- The greatest value of the next one. -/
  high : Nat
  /-- The bits read so far. -/
  bits : Nat
  deriving DecidableEq, Repr

/-- What a byte between two characters means. -/
inductive Lead where
  /-- A whole character. -/
  | whole (c : Char)
  /-- The beginning of a longer one. -/
  | begins (rest : Unfinished)
  /-- No character begins so. -/
  | stray

/-- The meaning of a byte between two characters.  The ranges leave out overlong forms, the
surrogates and everything above U+10FFFF. -/
def lead (b : UInt8) : Lead :=
  let n := b.toNat
  if n < 0x80 then .whole (Char.ofNat n)
  else if n < 0xC2 then .stray
  else if n < 0xE0 then .begins ⟨1, 0x80, 0xBF, n - 0xC0⟩
  else if n < 0xF0 then
    .begins ⟨2, if n = 0xE0 then 0xA0 else 0x80, if n = 0xED then 0x9F else 0xBF, n - 0xE0⟩
  else if n < 0xF5 then
    .begins ⟨3, if n = 0xF0 then 0x90 else 0x80, if n = 0xF4 then 0x8F else 0xBF, n - 0xF0⟩
  else .stray

/-- The text of some bytes, read in the middle of a character or between two. -/
def decodeFrom : Option Unfinished → Bytes → List Char
  | none, [] => []
  | some _, [] => [replacement]
  | none, b :: rest =>
    match lead b with
    | .whole c => c :: decodeFrom none rest
    | .begins u => decodeFrom (some u) rest
    | .stray => replacement :: decodeFrom none rest
  | some u, b :: rest =>
    let n := b.toNat
    if u.low ≤ n ∧ n ≤ u.high then
      let bits := u.bits * 64 + (n - 0x80)
      if u.owed ≤ 1 then Char.ofNat bits :: decodeFrom none rest
      else decodeFrom (some ⟨u.owed - 1, 0x80, 0xBF, bits⟩) rest
    else
      match lead b with
      | .whole c => replacement :: c :: decodeFrom none rest
      | .begins v => replacement :: decodeFrom (some v) rest
      | .stray => replacement :: replacement :: decodeFrom none rest

/-- The text of some bytes. -/
def decode (bytes : Bytes) : String := String.ofList (decodeFrom none bytes)

/-- The bytes of a string. -/
def encode (text : String) : Bytes := text.toList.flatMap String.utf8EncodeChar

/-- Bytes below 0x80 are characters of their own. -/
theorem decodeFrom_ascii (b : UInt8) (h : b.toNat < 0x80) (rest : Bytes) :
    decodeFrom none (b :: rest) = Char.ofNat b.toNat :: decodeFrom none rest := by
  simp [decodeFrom, lead, h]

end GoldenRun.Text
