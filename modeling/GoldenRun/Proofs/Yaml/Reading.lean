import GoldenRun.Yaml.Node
import Mathlib.Data.List.Basic

/-!
# Steps of reading that only move the cursor

What is read here names no nodes, declares no handles and merges nothing, so all that changes is
where the cursor stands.

* `Reading.Goes`: a step goes from one place to another and yields a value
* `Reading.Goes.bind`: one step after the other
* `Cursor.Stands`: a cursor at the beginning of a line, behind its indentation
* `Cursor.separation_of_break`: from the end of a line the separation leads to the beginning of the
  next one
-/

namespace GoldenRun.Yaml

open GoldenRun.Text

/-! ## Places -/

namespace Cursor

variable {c d : Cursor} {n k : Nat} {x y : Char} {rest next text : List Char} {p : Char → Bool}

theorem advance_of_rest (h : c.rest = x :: rest) :
    c.advance = { c with rest, previous := some x, offset := c.offset + width [x] } := by
  rw [advance, h]

theorem advanceBy_succ (n : Nat) (c : Cursor) : advanceBy (n + 1) c = (advanceBy n c).advance := by
  induction n generalizing c with
  | zero => rfl
  | succ n ih => exact ih c.advance

theorem advanceBy_add (m n : Nat) (c : Cursor) :
    advanceBy n (advanceBy m c) = advanceBy (m + n) c := by
  induction n with
  | zero => rfl
  | succ n ih => rw [advanceBy_succ, ih, ← Nat.add_assoc, advanceBy_succ]

theorem advanceBy_length_append (text more : List Char) (n : Nat) (c : Cursor) :
    advanceBy ((text ++ more).length + n) c =
      advanceBy (more.length + n) (advanceBy text.length c) := by
  rw [advanceBy_add, List.length_append, Nat.add_assoc]

theorem rest_advance (c : Cursor) : c.advance.rest = c.rest.tail := by
  unfold advance
  split
  · next h => rw [h, List.tail_nil]
  · next h => rw [h, List.tail_cons]

theorem peek?_of_rest (h : c.rest = x :: rest) : c.peek? = some x := by
  rw [peek?, h, List.head?_cons]

theorem second?_of_rest (h : c.rest = x :: y :: rest) : c.second? = some y := by
  rw [second?, h]
  rfl

theorem sees_of_rest (h : c.rest = x :: rest) (y : Char) : c.sees y = decide (x = y) := by
  rw [sees, h, List.head?_cons]
  simp

theorem atBreak_of_feed (h : c.rest = '\n' :: rest) : c.atBreak = true := by
  rw [atBreak, h]
  rfl

theorem rest_advance_of_rest (h : c.rest = x :: rest) : c.advance.rest = rest := by
  rw [rest_advance, h, List.tail_cons]

/-- What a cursor knows of its line. -/
theorem line_advance (c : Cursor) :
    c.advance.line = c.line ∧ c.advance.lineStart = c.lineStart ∧ c.advance.indent = c.indent ∧
      c.advance.tab = c.tab := by
  unfold advance
  split <;> exact ⟨rfl, rfl, rfl, rfl⟩

theorem rest_advanceBy (n : Nat) (c : Cursor) : (advanceBy n c).rest = c.rest.drop n := by
  induction n generalizing c with
  | zero => rfl
  | succ n ih => rw [advanceBy, ih, rest_advance, List.drop_tail]

/-- Behind a text that is ahead. -/
theorem rest_advanceBy_of_rest (h : c.rest = text ++ rest) :
    (advanceBy text.length c).rest = rest := by
  rw [rest_advanceBy, h, List.drop_left]

theorem line_advanceBy (n : Nat) (c : Cursor) :
    (advanceBy n c).line = c.line ∧ (advanceBy n c).lineStart = c.lineStart ∧
      (advanceBy n c).indent = c.indent ∧ (advanceBy n c).tab = c.tab := by
  induction n generalizing c with
  | zero => exact ⟨rfl, rfl, rfl, rfl⟩
  | succ n ih =>
    obtain ⟨hline, hstart, hindent, htab⟩ := line_advance c
    rw [advanceBy, (ih c.advance).1, (ih c.advance).2.1, (ih c.advance).2.2.1,
      (ih c.advance).2.2.2]
    exact ⟨hline, hstart, hindent, htab⟩

theorem offset_advanceBy (n : Nat) (c : Cursor) :
    (advanceBy n c).offset = c.offset + width (c.rest.take n) := by
  induction n generalizing c with
  | zero => rfl
  | succ n ih =>
    rw [advanceBy, ih, rest_advance]
    unfold advance
    split
    · next h => simp [h]
    · next h => simp [h, Nat.add_assoc]

/-- Behind the beginning of its line. -/
def InLine (c : Cursor) : Prop := c.lineStart < c.offset

theorem InLine.advance (h : c.InLine) : c.advance.InLine := by
  have hoffset := offset_advanceBy 1 c
  have hstart := (line_advance c).2.1
  have hadvance : advanceBy 1 c = c.advance := rfl
  rw [hadvance] at hoffset
  unfold InLine at *
  omega

theorem InLine.advanceBy (h : c.InLine) (n : Nat) : (advanceBy n c).InLine := by
  induction n generalizing c with
  | zero => exact h
  | succ n ih => exact ih h.advance

/-- No mark that parts documents stands within a line. -/
theorem InLine.not_atDocumentMark (h : c.InLine) : c.atDocumentMark = false := by
  have hne : c.offset ≠ c.lineStart := Nat.ne_of_gt h
  simp [atDocumentMark, hne]

/-- A place from which a scalar can be read on: not at a mark that parts documents. -/
structure Clear (c : Cursor) : Prop where
  /-- The cursor is not before its line. -/
  column : c.lineStart ≤ c.offset
  /-- It is at no mark. -/
  mark : c.atDocumentMark = false

theorem InLine.clear (h : c.InLine) : c.Clear := ⟨Nat.le_of_lt h, h.not_atDocumentMark⟩

theorem Clear.advance (h : c.Clear) (hrest : c.rest = x :: rest) : c.advance.InLine := by
  have hwidth : 0 < width [x] := by
    rw [width_cons]
    split <;> omega
  have hcolumn := h.column
  rw [advance_of_rest hrest]
  unfold InLine
  show c.lineStart < c.offset + width [x]
  omega

/-! ## Separation -/

/-- Whether something begins here: neither separation nor a comment. -/
def Opens (text : List Char) : Prop := ∀ x ∈ text.head?, isSpacing x = false ∧ x ≠ '#'

theorem opens_cons (hspacing : isSpacing x = false) (hcomment : x ≠ '#') : Opens (x :: rest) := by
  intro y hy
  obtain rfl : x = y := Option.some.inj hy
  exact ⟨hspacing, hcomment⟩

theorem skipWhite_of_not_white (h : c.rest.head?.any isWhite = false) : c.skipWhite = c := by
  have htake : c.rest.takeWhile isWhite = [] := by
    cases hrest : c.rest with
    | nil => rfl
    | cons x rest =>
      rw [hrest, List.head?_cons, Option.any_some] at h
      rw [List.takeWhile_cons, h]
      rfl
  unfold skipWhite skipWhile ahead
  rw [htake]
  cases c.tab <;> rfl

/-- One blank is gone over. -/
theorem skipWhite_of_blank (h : c.rest = ' ' :: rest) (hrest : rest.head?.any isWhite = false) :
    c.skipWhite = c.advance := by
  have htake : c.rest.takeWhile isWhite = [' '] := by
    have hnone : rest.takeWhile isWhite = [] := by
      cases rest with
      | nil => rfl
      | cons x rest =>
        rw [List.head?_cons, Option.any_some] at hrest
        rw [List.takeWhile_cons, hrest]
        rfl
    rw [h, List.takeWhile_cons, hnone]
    rfl
  unfold skipWhite skipWhile ahead
  rw [htake]
  cases c.tab <;> rfl

theorem Opens.not_white (h : Opens text) : text.head?.any isWhite = false := by
  cases text with
  | nil => rfl
  | cons x rest =>
    have hx := (h x rfl).1
    rw [isSpacing, Bool.or_eq_false_iff] at hx
    exact hx.1

theorem Opens.not_break (h : Opens text) : text.head?.any isBreak = false := by
  cases text with
  | nil => rfl
  | cons x rest =>
    have hx := (h x rfl).1
    rw [isSpacing, Bool.or_eq_false_iff] at hx
    exact hx.2

theorem Opens.not_comment (h : Opens text) : (text.head? = some '#') = False := by
  rw [eq_iff_iff, iff_false]
  exact fun hcomment => (h '#' hcomment).2 rfl

/-- Where something begins, no separation stands. -/
theorem separation_of_opens (h : Opens c.rest) (comments : Bool) :
    c.separation comments = (0, c) := by
  unfold separation separation.go
  rw [skipWhite_of_not_white h.not_white]
  simp [sees, atBreak, h.not_comment, h.not_break]

/-- One blank is separation. -/
theorem separation_of_blank (h : c.rest = ' ' :: rest) (hrest : Opens rest) (comments : Bool) :
    c.separation comments = (0, c.advance) := by
  have hadvance : c.advance.rest = rest := by rw [rest_advance, h, List.tail_cons]
  unfold separation separation.go
  rw [skipWhite_of_blank h hrest.not_white]
  simp [sees, atBreak, hadvance, hrest.not_comment, hrest.not_break]

/-- A cursor at the beginning of a line, behind its indentation, with `next` ahead. -/
structure Stands (c : Cursor) (k : Nat) (next : List Char) : Prop where
  /-- What is ahead. -/
  rest : c.rest = next
  /-- The blanks at the beginning of the line. -/
  indent : c.indent = k
  /-- The cursor is just behind them. -/
  column : c.offset = c.lineStart + k
  /-- No tab is among them. -/
  tab : c.tab = none

/-- The beginning of the line behind a line break. -/
theorem nextLine_of_feed (h : c.rest = '\n' :: rest) :
    c.nextLine = { c.advance with line := c.line + 1, lineStart := c.offset + 1, tab := none } := by
  have hadvance := advance_of_rest h
  have hwidth : width ['\n'] = 1 := rfl
  simp [nextLine, sees, h, hadvance, hwidth]

theorem takeWhile_blanks (hnext : next.head? ≠ some ' ') :
    (List.replicate k ' ' ++ next).takeWhile (· = ' ') = List.replicate k ' ' := by
  have hnone : next.takeWhile (· = ' ') = [] := by
    cases next with
    | nil => rfl
    | cons x rest =>
      have hx : x ≠ ' ' := fun h => hnext (by rw [h]; rfl)
      simp [hx]
  rw [List.takeWhile_append_of_pos (by simp), hnone, List.append_nil]

theorem width_blanks (k : Nat) : width (List.replicate k ' ') = k := by
  induction k with
  | zero => rfl
  | succ k ih =>
    rw [List.replicate_succ, width_cons, ih]
    simp [Nat.add_comm]

theorem stands_intoLine (h : c.rest = '\n' :: (List.replicate k ' ' ++ next)) :
    (c.intoLine k).Stands k next ∧ (c.intoLine k).line = c.line + 1 := by
  have hadvance := advance_of_rest h
  have hline := nextLine_of_feed h
  have hrest : c.nextLine.rest = List.replicate k ' ' ++ next := by rw [hline, hadvance]
  have hlength : (List.replicate k ' ').length = k := List.length_replicate
  have hoffset : (advanceBy k c.nextLine).offset = c.nextLine.offset + k := by
    rw [offset_advanceBy, hrest, List.take_left' hlength, width_blanks]
  obtain ⟨hsame, hstart, -, htab⟩ := line_advanceBy k c.nextLine
  refine ⟨⟨?_, rfl, ?_, ?_⟩, ?_⟩
  · show (advanceBy k c.nextLine).rest = next
    rw [rest_advanceBy, hrest, List.drop_left' hlength]
  · show (advanceBy k c.nextLine).offset = (advanceBy k c.nextLine).lineStart + k
    rw [hoffset, hstart, hline, hadvance]
    rfl
  · show (advanceBy k c.nextLine).tab = none
    rw [htab, hline]
  · show (advanceBy k c.nextLine).line = c.line + 1
    rw [hsame, hline]

/-- The indentation of the next line is gone over. -/
theorem skipIndent_nextLine (h : c.rest = '\n' :: (List.replicate k ' ' ++ next))
    (hnext : next.head? ≠ some ' ') : c.nextLine.skipIndent = c.intoLine k := by
  have hrest : c.nextLine.rest = List.replicate k ' ' ++ next := by
    rw [nextLine_of_feed h, advance_of_rest h]
  unfold skipIndent skipWhile ahead intoLine
  rw [hrest, takeWhile_blanks hnext, List.length_replicate]

/-- From the end of a line the separation leads to the beginning of the next one. -/
theorem separation_of_break (h : c.rest = '\n' :: (List.replicate k ' ' ++ next))
    (hnext : Opens next) (comments : Bool) :
    ∃ d : Cursor, c.separation comments = (1, d) ∧ d.Stands k next ∧ d.line = c.line + 1 := by
  have hspace : next.head? ≠ some ' ' := by
    intro hhead
    have hwhite := hnext.not_white
    rw [hhead] at hwhite
    cases hwhite
  obtain ⟨hstands, hlines⟩ := stands_intoLine h
  rw [← skipIndent_nextLine h hspace] at hstands hlines
  refine ⟨c.nextLine.skipIndent, ?_, hstands, hlines⟩
  have hfuel : ∃ fuel, c.rest.length + 1 = fuel + 1 + 1 := ⟨_, by rw [h, List.length_cons]⟩
  obtain ⟨fuel, hfuel⟩ := hfuel
  have hopens : Opens c.nextLine.skipIndent.rest := hstands.rest ▸ hnext
  unfold separation
  rw [hfuel, separation.go, skipWhite_of_not_white (by rw [h]; rfl)]
  have hfirst : c.atBreak = true := by
    rw [atBreak, h]
    rfl
  have hnocomment : c.sees '#' = false := by
    rw [sees, h]
    rfl
  simp only [hnocomment, Bool.and_false, Bool.false_eq_true, if_false, hfirst, if_true]
  rw [separation.go, skipWhite_of_not_white hopens.not_white]
  simp [sees, atBreak, hopens.not_comment, hopens.not_break]

/-- From here the separation leads to the beginning of a later line. -/
def Leads (c : Cursor) (line k : Nat) (next : List Char) : Prop :=
  (c.separation true).2.Stands k next ∧ line < (c.separation true).2.line

theorem Stands.leads {line : Nat} (h : c.Stands k next) (hnext : Opens next)
    (hlater : line < c.line) :
    c.Leads line k next := by
  unfold Leads
  rw [separation_of_opens (h.rest.symm ▸ hnext)]
  exact ⟨h, hlater⟩

theorem leads_of_feed (h : c.rest = '\n' :: (List.replicate k ' ' ++ next)) (hnext : Opens next) :
    c.Leads c.line k next := by
  obtain ⟨d, hseparation, hstands, hline⟩ := separation_of_break h hnext true
  unfold Leads
  rw [hseparation]
  exact ⟨hstands, Nat.lt_of_lt_of_eq (Nat.lt_succ_self _) hline.symm⟩

end Cursor

/-! ## Steps -/

namespace Reading

variable {α β : Type} {m : Reading α} {f : α → Reading β} {a : α} {b : β} {c d e : Cursor}

/-- A step goes from one place to another and yields a value; nothing else changes. -/
def Goes (m : Reading α) (c : Cursor) (a : α) (d : Cursor) : Prop :=
  ∀ s : Scan, m { s with cursor := c } = .ok (a, { s with cursor := d })

namespace Goes

theorem pure (a : α) (c : Cursor) : Goes (Pure.pure a) c a c := fun _ => rfl

/-- One step after the other. -/
theorem bind (hm : Goes m c a d) (hf : Goes (f a) d b e) : Goes (m >>= f) c b e := by
  intro s
  have hfirst := hm s
  have hthen := hf s
  show (m _ >>= fun p => f p.1 p.2) = _
  rw [hfirst]
  exact hthen

/-- The cursor is where it is. -/
theorem cursor_bind {f : Cursor → Reading β} (h : Goes (f c) c b e) :
    Goes (Reading.cursor >>= f) c b e := bind (fun _ => rfl) h

/-- Behind a move the cursor is where it was moved to. -/
theorem moveTo_bind {f : Unit → Reading β} (h : Goes (f ()) d b e) :
    Goes (Reading.moveTo d >>= f) c b e := bind (fun _ => rfl) h

theorem separation (comments : Bool) (c : Cursor) :
    Goes (Reading.separation comments) c (c.separation comments).1 (c.separation comments).2 :=
  fun _ => rfl

theorem separation_eq {comments : Bool} {n : Nat} (h : c.separation comments = (n, d)) :
    Goes (Reading.separation comments) c n d := by
  have hgoes := separation comments c
  rwa [h] at hgoes

/-- What depends on more than the cursor. -/
theorem get_bind {f : Scan → Reading β} (h : ∀ s : Scan, Goes (f { s with cursor := c }) c b e) :
    Goes (get >>= f) c b e := fun s => h s s

theorem skipSeparation (c : Cursor) :
    Goes Reading.skipSeparation c () (c.separation true).2 := fun _ => rfl

/-- A node without a name is not remembered. -/
theorem anchor_none (value : Value) (c : Cursor) : Goes (Reading.anchor none value) c none c :=
  fun _ => rfl

end Goes

end Reading

end GoldenRun.Yaml
