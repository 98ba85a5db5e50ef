/-!
# Permission masks

The permissions that new files do not get: nine bits, three each for the owner, the group and the
others.  A mask is written in octal digits, or by the permissions that it leaves: classes, an
operator and letters, as in `u=rwx,g-w`.
-/

namespace GoldenRun.Shell

/-- The permissions that new files do not get. -/
structure Mask where
  /-- The nine bits. -/
  bits : Nat := 0o022
  deriving DecidableEq, Repr, Inhabited

namespace Mask

/-- The permissions that a mask leaves. -/
def left (mask : Mask) : Nat := 0o777 - mask.bits % 0o1000

/-- The mask that leaves some permissions. -/
def leaving (permissions : Nat) : Mask := ⟨0o777 - permissions % 0o1000⟩

/-- A mask in four octal digits. -/
def octal (mask : Mask) : String :=
  let digit (n : Nat) : Char := Char.ofNat (0x30 + mask.bits / n % 8)
  String.ofList ['0', digit 0o100, digit 0o10, digit 1]

/-- A mask as the permissions that it leaves. -/
def letters (mask : Mask) : String :=
  let part (class_ : Char) (unit : Nat) : String :=
    let three := mask.left / unit % 8
    String.ofList ([class_, '='] ++ (if 4 ≤ three then ['r'] else []) ++
      (if 2 ≤ three % 4 then ['w'] else []) ++ if three % 2 = 1 then ['x'] else [])
  ",".intercalate [part 'u' 0o100, part 'g' 0o10, part 'o' 1]

/-- The mask that octal digits write; only the last nine bits count. -/
def ofOctal? (digits : List Char) : Option Mask :=
  if digits.all fun c => '0' ≤ c && c ≤ '7' then
    some ⟨digits.foldl (fun n c => (n * 8 + (c.toNat - 0x30)) % 0o1000) 0⟩
  else none

/-- The lowest bits of the classes that a letter stands for. -/
def classBits : Char → Nat
  | 'a' => 0o111
  | 'u' => 0o100
  | 'g' => 0o010
  | 'o' => 0o001
  | _ => 0

/-- The permissions of one class that a letter stands for, when some are left already. -/
def letterBits (permissions : Nat) : Char → Nat
  | 'r' => 4
  | 'w' => 2
  | 'x' => 1
  | 'u' => permissions / 0o100 % 8
  | 'g' => permissions / 0o10 % 8
  | 'o' => permissions % 8
  | 'X' => if permissions &&& 0o111 = 0 then 0 else 1
  | _ => 0

/-- Some permissions without others. -/
def without (permissions others : Nat) : Nat := permissions - (permissions &&& others)

/-- Changes permissions as a text says; none if it says nothing.  `classes` are those to which the
next operator applies. -/
def changed? : Nat → Nat → List Char → Nat → Option Nat
  | 0, _, _, _ => none
  | _ + 1, _, [], permissions => some permissions
  | n + 1, classes, text, permissions =>
    let named := text.takeWhile "augo".toList.contains
    let classes := named.foldl (fun bits c => bits ||| classBits c) classes
    let classes := if classes = 0 then 0o111 else classes
    match text.drop named.length with
    | [] => some permissions
    | operator :: rest =>
      if !"=+-".toList.contains operator then none
      else
        let letters := rest.takeWhile "rwxugoXs".toList.contains
        let bits := classes * letters.foldl (fun bits c => bits ||| letterBits permissions c) 0
        let permissions := match operator with
          | '=' => without permissions (classes * 7) ||| bits
          | '+' => permissions ||| bits
          | _ => without permissions bits
        match rest.drop letters.length with
        | [] => some permissions
        | ',' :: rest => changed? n 0 rest permissions
        | c :: rest =>
          if "=+-".toList.contains c then changed? n classes (c :: rest) permissions else none

/-- The mask after a change of the permissions that it leaves. -/
def change? (mask : Mask) (text : List Char) : Option Mask :=
  (changed? (text.length + 1) 0 text mask.left).map leaving

end Mask

end GoldenRun.Shell
