/-!
# Sixteen-bit units

Names are ordered, and columns counted, by the sixteen-bit units of a text: a character below
U+10000 is one unit, any other a high and a low surrogate.  The order by units differs from the
order by code point only where a character above U+FFFF meets one in U+E000..U+FFFF.
-/

namespace GoldenRun.Text

/-- The units of one character. -/
def units (c : Char) : List Nat :=
  if c.toNat < 0x10000 then [c.toNat]
  else [0xD800 + (c.toNat - 0x10000) / 0x400, 0xDC00 + (c.toNat - 0x10000) % 0x400]

/-- The text of some units.  A surrogate without its other half becomes U+FFFD. -/
def ofUnits : List Nat → List Char
  | [] => []
  | [a] => [if 0xD800 ≤ a ∧ a < 0xE000 then '\uFFFD' else Char.ofNat a]
  | a :: b :: rest =>
    if 0xD800 ≤ a ∧ a < 0xDC00 ∧ 0xDC00 ≤ b ∧ b < 0xE000 then
      Char.ofNat (0x10000 + (a - 0xD800) * 0x400 + (b - 0xDC00)) :: ofUnits rest
    else (if 0xD800 ≤ a ∧ a < 0xE000 then '\uFFFD' else Char.ofNat a) :: ofUnits (b :: rest)

/-- The number of units of a text. -/
def width : List Char → Nat
  | [] => 0
  | c :: rest => (if c.toNat < 0x10000 then 1 else 2) + width rest

/-- The number of units of a string. -/
def stringWidth (text : String) : Nat := width text.toList

@[simp] theorem width_nil : width [] = 0 := rfl

@[simp] theorem width_cons (c : Char) (text : List Char) :
    width (c :: text) = (if c.toNat < 0x10000 then 1 else 2) + width text := rfl

/-- Whether one list of units comes no later than another: the first difference decides, and a
text comes before its extensions. -/
def unitsLe : List Nat → List Nat → Bool
  | [], _ => true
  | _ :: _, [] => false
  | a :: as, b :: bs => a < b || (a == b && unitsLe as bs)

/-- Whether one string comes no later than another by their units. -/
def stringLe (a b : String) : Bool :=
  unitsLe (a.toList.flatMap units) (b.toList.flatMap units)

theorem unitsLe_total (a b : List Nat) : (unitsLe a b || unitsLe b a) = true := by
  induction a generalizing b with
  | nil => simp [unitsLe]
  | cons x xs ih =>
    cases b with
    | nil => simp [unitsLe]
    | cons y ys =>
      have := ih ys
      simp only [unitsLe, Bool.or_eq_true, Bool.and_eq_true, decide_eq_true_eq, beq_iff_eq] at *
      rcases Nat.lt_trichotomy x y with h | h | h
      · exact .inl (.inl h)
      · exact this.imp (fun t => .inr ⟨h, t⟩) fun t => .inr ⟨h.symm, t⟩
      · exact .inr (.inl h)

theorem unitsLe_trans {a b c : List Nat} (hab : unitsLe a b = true) (hbc : unitsLe b c = true) :
    unitsLe a c = true := by
  induction a generalizing b c with
  | nil => rfl
  | cons x xs ih =>
    cases b with
    | nil => simp [unitsLe] at hab
    | cons y ys =>
      cases c with
      | nil => simp [unitsLe] at hbc
      | cons z zs =>
        simp only [unitsLe, Bool.or_eq_true, Bool.and_eq_true, decide_eq_true_eq, beq_iff_eq] at *
        rcases hab with h1 | ⟨h1, h1'⟩ <;> rcases hbc with h2 | ⟨h2, h2'⟩
        · left; omega
        · left; omega
        · left; omega
        · right; exact ⟨by omega, ih h1' h2'⟩

/-- A text filled up with blanks on the right to a number of units; a longer text is kept. -/
def padEnd (columns : Nat) (text : String) : String :=
  text ++ String.ofList (List.replicate (columns - stringWidth text) ' ')

end GoldenRun.Text
