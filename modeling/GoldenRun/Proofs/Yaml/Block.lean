import GoldenRun.Proofs.Text.Split
import GoldenRun.Proofs.Yaml.Plain

/-!
# Block scalars read back

A block scalar is read line by line.  `BlockText.take` is what one more line makes of the text read
so far, so a whole block is a fold over its lines; `BlockText.whole` is the text with every line
break behind it.  If the lines of a block come to a text with a line break behind it, then the
block reads back as that text, whatever the line breaks at its end are.

* `goes_blockLines`: the lines of a block are taken one after the other
* `BlockText.text_ending`: the line breaks at the end are chomped as the header says
* `goes_blockScalar`: a block is read as the text to which its lines come
-/

namespace GoldenRun.Yaml

open GoldenRun.Text Reading Cursor

variable {c d : Cursor} {rest next line text : List Char} {lines : List (List Char)} {x : Char}
  {columns k fuel : Nat} {fold : Bool} {chomping : Chomping} {b : BlockText}

/-! ## One line more -/

/-- A line of a block, as it is written. -/
def indentLine (columns : Nat) (line : List Char) : List Char :=
  if line = [] then [] else List.replicate columns ' ' ++ line

namespace BlockText

/-- The text so far with every line break behind it. -/
def whole (b : BlockText) : List Char :=
  b.text ++ List.replicate (if b.begun then 1 + b.empty else b.empty) '\n'

/-- What a text comes to with one more line. -/
def take (fold : Bool) (columns : Nat) (b : BlockText) (line : List Char) : BlockText :=
  if line = [] then { b with empty := b.empty + 1 }
  else { b with indent := columns }.grow fold line

/-- The indentation of the lines ahead is known, or it can be told from them. -/
def Ready (columns : Nat) (lines : List (List Char)) (b : BlockText) : Prop :=
  b.settled = true ∧ b.indent = columns ∨
    b.settled = false ∧ b.indent + 1 = columns ∧
      ∀ line, lines.find? (· ≠ []) = some line → line.head? ≠ some ' '

theorem Ready.take (h : b.Ready columns (line :: lines)) (fold : Bool) :
    (b.take fold columns line).Ready columns lines := by
  unfold BlockText.take
  split
  · next hempty =>
    rcases h with hsettled | ⟨hopen, hindent, hfirst⟩
    · exact .inl hsettled
    · exact .inr ⟨hopen, hindent, fun line hline => hfirst line (by simpa [hempty] using hline)⟩
  · exact .inl ⟨rfl, rfl⟩

end BlockText

/-! ## The lines of a block -/

theorem at_feed (h : c.rest = '\n' :: rest) : c.atEnd = false ∧ c.atBreak = true := by
  refine ⟨?_, atBreak_of_feed h⟩
  rw [atEnd, h]
  rfl

/-- The blanks at the beginning of the next line. -/
theorem ahead_nextLine (h : c.rest = '\n' :: rest) :
    c.nextLine.ahead (· = ' ') = rest.takeWhile (· = ' ') := by
  rw [ahead, nextLine_of_feed h, advance_of_rest h]

/-- The blanks that indent a line of the block are those with which it was written. -/
theorem BlockText.Ready.taken {blanks : Nat} (h : b.Ready columns (line :: lines))
    (hline : line ≠ []) (hblanks : columns ≤ blanks)
    (hexact : line.head? ≠ some ' ' → blanks = columns) :
    b.taken blanks = columns := by
  unfold BlockText.taken
  rcases h with ⟨hsettled, hindent⟩ | ⟨hopen, hindent, hfirst⟩
  · rw [if_pos hsettled, hindent, Int.toNat_natCast, Nat.min_eq_right hblanks]
  · have hhead := hfirst line (by simp [hline])
    rw [if_neg (by rw [hopen]; decide), hexact hhead]

/-- A line that is indented less leaves the indentation as it is. -/
theorem BlockText.Ready.deepen_of_less (h : b.Ready columns lines) (hless : k < columns) :
    b.deepen k = b := by
  unfold BlockText.deepen
  rcases h with ⟨hsettled, -⟩ | ⟨-, hindent, -⟩
  · simp [hsettled]
  · rw [if_neg]
    simp only [Bool.and_eq_true, decide_eq_true_eq, not_and]
    omega

/-- Behind a line with text the indentation is that of the block. -/
theorem BlockText.Ready.deepen (h : b.Ready columns lines) :
    b.deepen columns = { b with indent := columns } := by
  unfold BlockText.deepen
  rcases h with ⟨hsettled, hindent⟩ | ⟨hopen, hindent, -⟩
  · rw [if_neg (by simp [hsettled]), ← hindent]
  · rw [if_pos]
    simp only [hopen, Bool.not_false, Bool.true_and, decide_eq_true_eq]
    omega

/-- There are at least as many characters as there are lines. -/
theorem length_le_flatMap {α : Type} {f : α → List Char} (hf : ∀ a, f a ≠ []) (lines : List α) :
    lines.length ≤ (lines.flatMap f).length := by
  induction lines with
  | nil => exact Nat.le_refl 0
  | cons a lines ih =>
    have hpositive := List.length_pos_iff.mpr (hf a)
    rw [List.flatMap_cons, List.length_append, List.length_cons]
    omega

/-- Before each line of a block, and before what follows, stands a line break. -/
theorem exists_feed (columns : Nat) (lines : List (List Char)) (rest : List Char) :
    ∃ more, lines.flatMap (fun line => '\n' :: indentLine columns line) ++ '\n' :: rest =
      '\n' :: more := by
  cases lines with
  | nil => exact ⟨rest, rfl⟩
  | cons line lines => exact ⟨_, by rw [List.flatMap_cons, List.cons_append, List.cons_append]⟩

/-- A line that is indented less ends a block. -/
theorem goes_blockLines_end (fold : Bool) (chomping : Chomping) (fuel : Nat)
    (hready : b.Ready columns lines) (hindent : k + 1 < columns)
    (hrest : c.rest = '\n' :: (List.replicate k ' ' ++ next)) (hnext : Opens next) :
    ∃ d : Cursor, Goes (blockLines fold chomping (fuel + 1) b) c (b.text ++ b.ending chomping) d ∧
      d.Stands k next ∧ c.line < d.line := by
  have hspace : next.head? ≠ some ' ' := by
    intro hhead
    have hwhite := hnext.not_white
    rw [hhead] at hwhite
    cases hwhite
  obtain ⟨hend, hbreak⟩ := at_feed hrest
  obtain ⟨hstands, hline⟩ := stands_intoLine hrest
  have hblanks : (c.nextLine.ahead (· = ' ')).length = k := by
    rw [ahead_nextLine hrest, takeWhile_blanks hspace, List.length_replicate]
  have hless : (k : Int) < b.indent := by
    rcases hready with ⟨-, h⟩ | ⟨-, h, -⟩ <;> omega
  have htaken : b.taken k = k := by
    unfold BlockText.taken
    split
    · omega
    · rfl
  have hhere : (c.intoLine k).atBreak = false := by
    rw [atBreak, hstands.rest, hnext.not_break]
  have hpositive : (!b.settled && decide (b.indent = 0)) = false := by
    have hne : b.indent ≠ 0 := by omega
    simp [hne]
  refine ⟨c.intoLine k, ?_, hstands, by omega⟩
  rw [blockLines]
  refine .cursor_bind ?_
  simp only [hend, hbreak, hblanks, htaken, hready.deepen_of_less (by omega : k < columns),
    Bool.false_eq_true, Bool.not_true, if_false]
  refine .moveTo_bind ?_
  simp only [hhere, hpositive, hless, Bool.false_eq_true, if_false, if_true]
  exact .pure _ _

/-- Behind the next line the lines of a block are read on, with another text so far. -/
def ReadsOn (fold : Bool) (chomping : Chomping) (fuel : Nat) (b b' : BlockText) (c : Cursor)
    (rest : List Char) : Prop :=
  ∃ d : Cursor, d.rest = rest ∧ d.line = c.line + 1 ∧
    ∀ text e, Goes (blockLines fold chomping fuel b') d text e →
      Goes (blockLines fold chomping (fuel + 1) b) c text e

theorem readsOn_empty (fold : Bool) (chomping : Chomping) (fuel : Nat)
    (hready : b.Ready columns lines) (hcolumns : 0 < columns)
    (hrest : c.rest = '\n' :: '\n' :: rest) :
    ReadsOn fold chomping fuel b (b.take fold columns []) c ('\n' :: rest) := by
  have hrest : c.rest = '\n' :: (List.replicate 0 ' ' ++ '\n' :: rest) := hrest
  obtain ⟨hend, hbreak⟩ := at_feed hrest
  obtain ⟨hstands, hline⟩ := stands_intoLine hrest
  have hblanks : (c.nextLine.ahead (· = ' ')).length = 0 := by
    rw [ahead_nextLine hrest, takeWhile_blanks (by simp), List.length_replicate]
  have htaken : b.taken 0 = 0 := by simp [BlockText.taken]
  have hhere : (c.intoLine 0).atBreak = true := (at_feed hstands.rest).2
  refine ⟨c.intoLine 0, hstands.rest, hline, fun text e hread => ?_⟩
  rw [blockLines]
  refine .cursor_bind ?_
  simp only [hend, hbreak, hblanks, htaken, hready.deepen_of_less hcolumns, Bool.false_eq_true,
    Bool.not_true, if_false]
  refine .moveTo_bind ?_
  simp only [hhere, if_true]
  exact hread

theorem readsOn_text (fold : Bool) (chomping : Chomping) (fuel : Nat)
    (hready : b.Ready columns (line :: lines)) (hcolumns : 0 < columns) (hline : line ≠ [])
    (hprintable : ∀ x ∈ line, isPrintable x = true)
    (hrest : c.rest = '\n' :: (List.replicate columns ' ' ++ (line ++ '\n' :: rest))) :
    ReadsOn fold chomping fuel b (b.take fold columns line) c ('\n' :: rest) := by
  obtain ⟨hend, hbreak⟩ := at_feed hrest
  obtain ⟨hstands, hlines⟩ := stands_intoLine hrest
  -- A line may begin with blanks of its own, but only where the indentation is settled.
  have hleast : columns ≤ (c.nextLine.ahead (· = ' ')).length := by
    rw [ahead_nextLine hrest, List.takeWhile_append_of_pos (by simp), List.length_append,
      List.length_replicate]
    omega
  have hexact : line.head? ≠ some ' ' → (c.nextLine.ahead (· = ' ')).length = columns := by
    intro hhead
    rw [ahead_nextLine hrest, takeWhile_blanks (by rwa [List.head?_append_of_ne_nil _ hline]),
      List.length_replicate]
  have htaken := hready.taken hline hleast hexact
  have hbreaks : ∀ y ∈ line, isBreak y = false := fun y hy =>
    (not_control_of_printable (hprintable y hy)).2
  have hhere : (c.intoLine columns).atBreak = false := by
    obtain ⟨x, line', rfl⟩ := List.exists_cons_of_ne_nil hline
    rw [atBreak, hstands.rest]
    exact hbreaks x List.mem_cons_self
  have hpiece : (c.intoLine columns).rest.takeWhile (fun y => !isBreak y) = line := by
    have hfeed : isBreak '\n' = true := rfl
    rw [hstands.rest, List.takeWhile_append_of_pos (by simpa using hbreaks),
      List.takeWhile_cons_of_neg (by simp [hfeed]), List.append_nil]
  have hstop : (c.intoLine columns).skipToBreak = (c.intoLine columns).advanceBy line.length := by
    rw [skipToBreak, skipWhile, hpiece]
  have hpositive : (!b.settled && decide ((columns : Int) = 0)) = false := by
    have hne : columns ≠ 0 := by omega
    simp [hne]
  have hgrown : b.take fold columns line = { b with indent := columns }.grow fold line :=
    if_neg hline
  refine ⟨(c.intoLine columns).advanceBy line.length, rest_advanceBy_of_rest hstands.rest,
    (line_advanceBy _ _).1.trans hlines, fun text e hread => ?_⟩
  rw [blockLines]
  refine .cursor_bind ?_
  simp only [hend, hbreak, htaken, hready.deepen, Bool.false_eq_true, Bool.not_true, if_false]
  refine .moveTo_bind ?_
  simp only [hhere, hpositive, Int.lt_irrefl, Bool.false_eq_true, if_false, hstop, ahead, hpiece]
  refine .bind (goes_checkPrintable hprintable _) (.moveTo_bind ?_)
  rw [← hgrown]
  exact hread

/-- The lines of a block are taken one after the other, up to a line that is indented less. -/
theorem goes_blockLines (fold : Bool) (chomping : Chomping)
    (hlines : ∀ line ∈ lines, ∀ x ∈ line, isPrintable x = true)
    (hready : b.Ready columns lines) (hindent : k + 1 < columns) (hfuel : lines.length < fuel)
    (hrest : c.rest = lines.flatMap (fun line => '\n' :: indentLine columns line) ++
      '\n' :: (List.replicate k ' ' ++ next)) (hnext : Opens next) :
    ∃ d : Cursor, Goes (blockLines fold chomping fuel b) c
        ((lines.foldl (BlockText.take fold columns) b).text ++
          (lines.foldl (BlockText.take fold columns) b).ending chomping) d ∧
      d.Stands k next ∧ c.line < d.line := by
  induction lines generalizing c b fuel with
  | nil =>
    obtain ⟨fuel, rfl⟩ := Nat.exists_eq_add_one.mpr (Nat.zero_lt_of_lt hfuel)
    exact goes_blockLines_end fold chomping fuel hready hindent hrest hnext
  | cons line lines ih =>
    obtain ⟨fuel, rfl⟩ := Nat.exists_eq_add_one.mpr (Nat.zero_lt_of_lt hfuel)
    obtain ⟨hprintable, hlines'⟩ := List.forall_mem_cons.mp hlines
    rw [List.flatMap_cons, List.append_assoc] at hrest
    obtain ⟨more, hmore⟩ := exists_feed columns lines (List.replicate k ' ' ++ next)
    rw [hmore] at hrest
    have hread : ReadsOn fold chomping fuel b (b.take fold columns line) c
        ('\n' :: more) := by
      by_cases hempty : line = []
      · subst hempty
        exact readsOn_empty fold chomping _ hready (by omega) hrest
      · refine readsOn_text fold chomping _ hready (by omega) hempty hprintable ?_
        rw [hrest, indentLine, if_neg hempty, List.cons_append, List.append_assoc]
    obtain ⟨d, hd, hline, hgoes⟩ := hread
    obtain ⟨e, hthen, he, hlater⟩ := ih hlines' (hready.take fold) (Nat.lt_of_succ_lt_succ hfuel)
      (hd.trans hmore.symm)
    exact ⟨e, hgoes _ _ hthen, he, by omega⟩

/-! ## The text of a block -/

namespace BlockText

/-- No line with text was read yet. -/
structure Unbegun (b : BlockText) : Prop where
  /-- There was none. -/
  begun : b.begun = false
  /-- So there is no text. -/
  text : b.text = []
  /-- No line was indented more. -/
  more : b.more = false

theorem Unbegun.take_nil (h : b.Unbegun) : (b.take fold columns []).Unbegun :=
  ⟨h.begun, h.text, h.more⟩

theorem Unbegun.gap (h : b.Unbegun) : b.gap fold x = List.replicate b.empty '\n' := by
  unfold BlockText.gap
  simp only [h.begun, h.more, Bool.false_eq_true, if_false]
  split
  · rfl
  · split
    · next hempty => rw [hempty, List.replicate_zero]
    · rfl

theorem whole_take_nil (b : BlockText) : (b.take fold columns []).whole = b.whole ++ ['\n'] := by
  have hnext : (if b.begun then 1 + (b.empty + 1) else b.empty + 1) =
      (if b.begun then 1 + b.empty else b.empty) + 1 := by
    split <;> omega
  simp only [take, whole, if_true, hnext, List.replicate_succ', List.append_assoc]

/-- A line with text goes behind what was read before. -/
theorem text_take (fold : Bool) (columns : Nat) (hline : line ≠ []) (b : BlockText) :
    (b.take fold columns line).text = b.text ++ b.gap fold (line.head?.getD '\n') ++ line := by
  rw [take, if_neg hline]
  rfl

theorem whole_take_of_ne_nil (hline : line ≠ []) (b : BlockText) :
    (b.take fold columns line).whole = (b.take fold columns line).text ++ ['\n'] := by
  rw [take, if_neg hline]
  rfl

/-- Where lines are kept, each is added with its line break. -/
theorem whole_take_literal (b : BlockText) (line : List Char) :
    (b.take false columns line).whole = b.whole ++ (line ++ ['\n']) := by
  by_cases hline : line = []
  · rw [hline, whole_take_nil]
    rfl
  · rw [whole_take_of_ne_nil hline, text_take _ _ hline]
    simp [gap, whole]

theorem foldl_whole_literal (lines : List (List Char)) (b : BlockText) :
    (lines.foldl (take false columns) b).whole = b.whole ++ lines.flatMap (· ++ ['\n']) := by
  induction lines generalizing b with
  | nil => simp
  | cons line lines ih =>
    rw [List.foldl_cons, ih, whole_take_literal, List.flatMap_cons, List.append_assoc]

/-- More lines only add to the text. -/
theorem text_prefix_foldl (fold : Bool) (columns : Nat) (lines : List (List Char))
    (b : BlockText) :
    b.text <+: (lines.foldl (take fold columns) b).text := by
  induction lines generalizing b with
  | nil => exact List.prefix_rfl
  | cons line lines ih =>
    refine List.IsPrefix.trans ?_ (ih _)
    by_cases hline : line = []
    · simp [take, hline]
    · rw [text_take _ _ hline, List.append_assoc]
      exact List.prefix_append _ _

theorem text_prefix_whole (b : BlockText) : b.text <+: b.whole := List.prefix_append _ _

/-- Every character of a line gets into the text. -/
theorem mem_whole_of_mem (fold : Bool) (columns : Nat) (hline : line ∈ lines) (hx : x ∈ line)
    (b : BlockText) :
    x ∈ (lines.foldl (take fold columns) b).whole := by
  obtain ⟨before, behind, rfl⟩ := List.append_of_mem hline
  rw [List.foldl_append, List.foldl_cons]
  refine (text_prefix_whole _).subset ((text_prefix_foldl _ _ behind _).subset ?_)
  rw [text_take _ _ (List.ne_nil_of_mem hx)]
  exact List.mem_append_right _ hx

/-- Before the first line with text there are only line breaks. -/
theorem whole_of_find (fold : Bool) (columns : Nat)
    (hfind : lines.find? (· ≠ []) = some line) (h : b.Unbegun) :
    ∃ n more, (lines.foldl (take fold columns) b).whole = List.replicate n '\n' ++ line ++ more := by
  induction lines generalizing b with
  | nil => cases hfind
  | cons first lines ih =>
    rw [List.foldl_cons]
    by_cases hfirst : first = []
    · subst hfirst
      exact ih (by simpa using hfind) h.take_nil
    · obtain rfl : first = line := by simpa [hfirst] using hfind
      have htext := text_take fold columns hfirst b
      rw [h.text, h.gap, List.nil_append] at htext
      obtain ⟨more, hmore⟩ := (text_prefix_foldl fold columns lines
        (b.take fold columns first)).trans (text_prefix_whole _)
      exact ⟨b.empty, more, by rw [← hmore, htext]⟩

theorem foldl_unbegun_or_begun (fold : Bool) (columns : Nat) (lines : List (List Char))
    (h : b.Unbegun ∨ b.begun = true) :
    (lines.foldl (take fold columns) b).Unbegun ∨
      (lines.foldl (take fold columns) b).begun = true := by
  induction lines generalizing b with
  | nil => exact h
  | cons line lines ih =>
    refine ih ?_
    by_cases hline : line = []
    · subst hline
      exact h.imp Unbegun.take_nil id
    · right
      rw [take, if_neg hline]
      rfl

end BlockText

/-- The lines without an empty one at the end. -/
def dropEmptyLast (lines : List (List Char)) : List (List Char) :=
  if lines.getLast? = some [] then lines.dropLast else lines

/-- How the line breaks at the end of a text are told in a header. -/
def chompingOf (text : List Char) : Chomping :=
  match text.reverse with
  | '\n' :: rest => if rest = [] || rest.head? = some '\n' then .keep else .clip
  | _ => .strip

theorem chompingOf_feed (text : List Char) : chompingOf (text ++ ['\n']) =
    if text = [] ∨ text.getLast? = some '\n' then .keep else .clip := by
  simp [chompingOf, List.head?_reverse]

theorem chompingOf_of_not_feed (h : text.getLast? ≠ some '\n') : chompingOf text = .strip := by
  rw [← List.head?_reverse] at h
  unfold chompingOf
  split
  · next hreverse => simp [hreverse] at h
  · rfl

theorem dropEmptyLast_concat_nil (lines : List (List Char)) :
    dropEmptyLast (lines ++ [[]]) = lines := by
  rw [dropEmptyLast, if_pos (by simp), List.dropLast_concat]

theorem dropEmptyLast_concat (hline : line ≠ []) (lines : List (List Char)) :
    dropEmptyLast (lines ++ [line]) = lines ++ [line] := by
  rw [dropEmptyLast, if_neg (by simpa using hline)]

namespace BlockText

/-- A text of line breaks alone keeps them. -/
theorem ending_of_unbegun (h : b.Unbegun) (htext : text ≠ []) (hwhole : b.whole = text) :
    b.text ++ b.ending (chompingOf text) = text := by
  have hfeeds : text = List.replicate b.empty '\n' := by
    rw [← hwhole, whole, h.text, h.begun]
    rfl
  obtain ⟨n, hn⟩ : ∃ n, b.empty = n + 1 :=
    Nat.exists_eq_succ_of_ne_zero fun hzero => htext (by rw [hfeeds, hzero]; rfl)
  have hlast : List.replicate n '\n' = [] ∨ (List.replicate n '\n').getLast? = some '\n' := by
    cases n with
    | zero => exact .inl rfl
    | succ n => exact .inr (by rw [List.replicate_succ', List.getLast?_concat])
  have hchomping : chompingOf text = .keep := by
    rw [hfeeds, hn, List.replicate_succ', chompingOf_feed, if_pos hlast]
  rw [hchomping, ending, h.begun, h.text, hfeeds]
  rfl

/-- Behind a line with text, one line break is clipped to and more of them are kept. -/
theorem ending_of_begun (h : b.begun = true) (hwhole : b.whole = text) :
    b.text ++ b.ending (chompingOf text) = text := by
  have hsplit : text = b.text ++ List.replicate b.empty '\n' ++ ['\n'] := by
    rw [← hwhole, whole, if_pos h, Nat.add_comm, List.replicate_succ', List.append_assoc]
  rw [hsplit, chompingOf_feed]
  split
  · rw [ending, if_pos h, Nat.add_comm, List.replicate_succ', List.append_assoc]
  · next hlast =>
    have hzero : b.empty = 0 := by
      by_contra hne
      obtain ⟨n, hn⟩ := Nat.exists_eq_succ_of_ne_zero hne
      refine hlast (.inr ?_)
      rw [hn, List.replicate_succ', ← List.append_assoc, List.getLast?_concat]
    rw [ending, if_pos h, hzero, List.replicate_zero, List.append_nil]

/-- The line breaks at the end of a text are chomped as its header says. -/
theorem text_ending (hfeeds : ∀ line ∈ lines, '\n' ∉ line) (hne : lines ≠ [])
    (htext : text ≠ []) (h : b.Unbegun)
    (hwhole : (lines.foldl (take fold columns) b).whole = text ++ ['\n']) :
    ((dropEmptyLast lines).foldl (take fold columns) b).text ++
      ((dropEmptyLast lines).foldl (take fold columns) b).ending (chompingOf text) = text := by
  obtain ⟨lines, line, rfl⟩ := (List.eq_nil_or_concat' lines).resolve_left hne
  rw [List.foldl_append, List.foldl_cons, List.foldl_nil] at hwhole
  by_cases hline : line = []
  · subst hline
    rw [whole_take_nil, List.append_left_inj] at hwhole
    rw [dropEmptyLast_concat_nil]
    rcases foldl_unbegun_or_begun fold columns lines (.inl h) with hunbegun | hbegun
    · exact ending_of_unbegun hunbegun htext hwhole
    · exact ending_of_begun hbegun hwhole
  · rw [whole_take_of_ne_nil hline, List.append_left_inj] at hwhole
    have hlast : text.getLast? ≠ some '\n' := by
      rw [← hwhole, text_take _ _ hline, List.getLast?_append_of_ne_nil _ hline]
      intro hfeed
      exact hfeeds line (List.mem_append_right _ List.mem_cons_self)
        (List.mem_of_getLast? hfeed)
    rw [dropEmptyLast_concat hline, List.foldl_append, List.foldl_cons, List.foldl_nil,
      chompingOf_of_not_feed hlast, ending, List.append_nil, hwhole]

end BlockText

/-! ## The header -/

/-- How the chomping is written. -/
def chompingText : Chomping → List Char
  | .keep => ['+']
  | .strip => ['-']
  | .clip => []

/-- How the indentation is written, if it must be. -/
def indicatorText (indicated : Bool) : List Char := if indicated then ['2'] else []

theorem blockHeaderText_eq (text : List Char) :
    blockHeaderText text =
      indicatorText (needsIndicator text) ++ chompingText (chompingOf text) ++ ['\n'] := by
  have hindicator : (if needsIndicator text then Nat.toDigits 10 indentWidth else []) =
      indicatorText (needsIndicator text) := rfl
  rw [blockHeaderText, hindicator]
  cases hreverse : text.reverse with
  | nil => simp [chompingOf, hreverse, chompingText]
  | cons x rest =>
    by_cases hx : x = '\n'
    · subst hx
      by_cases hkeep : rest = [] ∨ rest.head? = some '\n'
      · simp [chompingOf, hreverse, chompingText, hkeep]
      · simp [chompingOf, hreverse, chompingText, hkeep]
    · simp [chompingOf, hreverse, chompingText, hx]

/-- A header that ends here. -/
theorem goes_blockHeader_end (hrest : c.rest = '\n' :: rest) (h : BlockHeader) :
    Goes (blockHeader (fuel + 1) h) c h c := by
  have hpeek : c.peek? = some '\n' := peek?_of_rest hrest
  rw [blockHeader]
  refine .cursor_bind ?_
  rw [hpeek]
  exact .pure _ _

theorem goes_blockHeader_chomping {h : BlockHeader} (hclip : h.chomping = .clip)
    (hrest : c.rest = chompingText chomping ++ '\n' :: rest) :
    Goes (blockHeader (fuel + 2) h) c { h with chomping }
      (advanceBy (chompingText chomping).length c) := by
  cases chomping with
  | clip =>
    have hsame : ({ h with chomping := .clip } : BlockHeader) = h := by rw [← hclip]
    rw [hsame]
    exact goes_blockHeader_end hrest h
  | keep =>
    have hpeek : c.peek? = some '+' := peek?_of_rest hrest
    have hbehind : c.advance.rest = '\n' :: rest := rest_advance_of_rest hrest
    rw [blockHeader]
    refine .cursor_bind ?_
    simp only [hpeek, hclip]
    exact .moveTo_bind (goes_blockHeader_end hbehind _)
  | strip =>
    have hpeek : c.peek? = some '-' := peek?_of_rest hrest
    have hbehind : c.advance.rest = '\n' :: rest := rest_advance_of_rest hrest
    rw [blockHeader]
    refine .cursor_bind ?_
    simp only [hpeek, hclip]
    exact .moveTo_bind (goes_blockHeader_end hbehind _)

/-- The header of a block is read as it was meant. -/
theorem goes_blockHeader {indicated : Bool}
    (hrest : c.rest = indicatorText indicated ++ chompingText chomping ++ '\n' :: rest) :
    Goes (blockHeader (fuel + 3) {}) c { chomping, width := if indicated then some 2 else none }
      (advanceBy (indicatorText indicated ++ chompingText chomping).length c) := by
  cases indicated with
  | false => exact goes_blockHeader_chomping rfl hrest
  | true =>
    have hpeek : c.peek? = some '2' := peek?_of_rest hrest
    have hbehind : c.advance.rest = chompingText chomping ++ '\n' :: rest := by
      rw [rest_advance, hrest]
      rfl
    rw [blockHeader]
    refine .cursor_bind ?_
    simp only [hpeek]
    exact .moveTo_bind (goes_blockHeader_chomping rfl hbehind)

/-! ## The whole scalar -/

/-- Lines that come to a text with a line break behind it when they are taken. -/
structure ComeTo (fold : Bool) (columns : Nat) (lines : List (List Char)) (text : List Char) :
    Prop where
  /-- They are lines. -/
  feeds : ∀ line ∈ lines, '\n' ∉ line
  /-- There are some. -/
  ne_nil : lines ≠ []
  /-- What they come to. -/
  whole : ∀ b : BlockText, b.Unbegun → b.empty = 0 →
    (lines.foldl (BlockText.take fold columns) b).whole = text ++ ['\n']

theorem mem_of_mem_dropEmptyLast (h : line ∈ dropEmptyLast lines) : line ∈ lines := by
  unfold dropEmptyLast at h
  split at h
  · exact List.dropLast_subset lines h
  · exact h

/-- An empty line alone comes to no text. -/
theorem ComeTo.ne_single (h : ComeTo fold columns lines text) (htext : text ≠ []) :
    lines ≠ [[]] := by
  rintro rfl
  have hwhole := h.whole { indent := 0, settled := false } ⟨rfl, rfl, rfl⟩ rfl
  rw [List.foldl_cons, List.foldl_nil, BlockText.whole_take_nil, List.append_left_inj] at hwhole
  exact htext hwhole.symm

theorem dropEmptyLast_ne_nil (h : ComeTo fold columns lines text) (htext : text ≠ []) :
    dropEmptyLast lines ≠ [] := by
  unfold dropEmptyLast
  split
  · next hlast =>
    intro hempty
    refine h.ne_single htext ?_
    rw [← List.dropLast_append_getLast? _ hlast, hempty]
    rfl
  · exact h.ne_nil

theorem feed_join {f : List Char → List Char} (h : lines ≠ []) :
    '\n' :: join '\n' (lines.map f) = lines.flatMap fun line => '\n' :: f line := by
  obtain ⟨line, lines, rfl⟩ := List.exists_cons_of_ne_nil h
  rw [List.map_cons, join_eq_flatMap, List.flatMap_cons, List.flatMap_map]
  rfl

/-- Where no indentation is written, the first line with text does not begin with a blank. -/
theorem ComeTo.first_line (h : ComeTo fold columns lines text)
    (hindicator : needsIndicator text = false)
    (hfind : (dropEmptyLast lines).find? (· ≠ []) = some line) : line.head? ≠ some ' ' := by
  have hfind' : lines.find? (· ≠ []) = some line := by
    unfold dropEmptyLast at hfind
    split at hfind
    · next hlast =>
      rw [← List.dropLast_append_getLast? _ hlast, List.find?_append, hfind]
      rfl
    · exact hfind
  have hunbegun : BlockText.Unbegun { indent := 0, settled := false } := ⟨rfl, rfl, rfl⟩
  obtain ⟨n, more, hwhole⟩ :=
    BlockText.whole_of_find fold columns hfind' hunbegun
  rw [h.whole _ hunbegun rfl] at hwhole
  intro hhead
  obtain ⟨line', rfl⟩ : ∃ line', line = ' ' :: line' := by
    cases line with
    | nil => cases hhead
    | cons x line' => exact ⟨line', by rw [Option.some.inj hhead]⟩
  have hdrop : (text ++ ['\n']).dropWhile (· = '\n') = ' ' :: (line' ++ more) := by
    rw [hwhole, List.append_assoc, List.dropWhile_append_of_pos (by simp)]
    rfl
  rw [List.dropWhile_append] at hdrop
  split at hdrop
  · cases hdrop
  · next hne =>
    have hneeds : needsIndicator text = true := by
      cases hrest : text.dropWhile (· = '\n') with
      | nil => simp [hrest] at hne
      | cons x rest =>
        rw [hrest] at hdrop
        obtain rfl : x = ' ' := (List.cons.inj hdrop).1
        simp [needsIndicator, hrest]
    rw [hindicator] at hneeds
    cases hneeds

/-- The header of a block. -/
def headerOf (text : List Char) : BlockHeader where
  chomping := chompingOf text
  width := if needsIndicator text then some 2 else none

theorem unbegun_start (h : BlockHeader) (indent : Int) :
    (h.start indent).Unbegun ∧ (h.start indent).empty = 0 := by
  unfold BlockHeader.start
  split <;> exact ⟨⟨rfl, rfl, rfl⟩, rfl⟩

theorem ComeTo.ready {indent : Int} (h : ComeTo fold columns lines text)
    (hcolumns : indent + 1 = columns) :
    ((headerOf text).start indent).Ready columns (dropEmptyLast lines) := by
  unfold BlockHeader.start headerOf
  cases hneeds : needsIndicator text with
  | true =>
    refine .inl ⟨rfl, ?_⟩
    show indent + 2 - 1 = (columns : Int)
    omega
  | false => exact .inr ⟨rfl, hcolumns, fun line hline => h.first_line hneeds hline⟩

/-- The lines of a block are printable if its text is, line breaks aside. -/
theorem ComeTo.printable (h : ComeTo fold columns lines text)
    (hprintable : ∀ x ∈ text, x ≠ '\n' → isPrintable x = true) :
    ∀ line ∈ dropEmptyLast lines, ∀ x ∈ line, isPrintable x = true := by
  intro line hline x hx
  have hmem := mem_of_mem_dropEmptyLast hline
  have hfeed : x ≠ '\n' := fun heq => h.feeds line hmem (heq ▸ hx)
  have hwhole := BlockText.mem_whole_of_mem fold columns hmem hx
    { indent := 0, settled := false }
  rw [h.whole _ ⟨rfl, rfl, rfl⟩ rfl] at hwhole
  exact hprintable x (by simpa [hfeed] using hwhole) hfeed

/-- A block is its header and what its lines come to. -/
theorem goes_blockScalar_of_lines {indent : Int} {header : BlockHeader} {e : Cursor}
    (hrest : c.rest = (if fold then '>' else '|') :: rest)
    (hheader : Goes (blockHeader (c.rest.length + 1) {}) c.advance header d)
    (hwhite : d.peek?.any isWhite = false)
    (hlines : Goes (blockLines fold header.chomping (c.rest.length + 1) (header.start indent)) d
      text e) :
    Goes (blockScalar indent) c (some text) e := by
  have hfold : c.sees '>' = fold := by
    rw [sees_of_rest hrest]
    cases fold <;> rfl
  have hmark : (c.sees '|' || c.sees '>') = true := by
    rw [sees_of_rest hrest, sees_of_rest hrest]
    cases fold <;> rfl
  rw [blockScalar]
  refine .cursor_bind ?_
  rw [if_pos hmark, hfold]
  refine .moveTo_bind (.bind hheader (.cursor_bind ?_))
  simp only [hwhite, Bool.false_eq_true, if_false]
  exact .bind hlines (.pure _ _)

/-- A block is read as the text to which its lines come. -/
theorem goes_blockScalar {indent : Int} (h : ComeTo fold columns lines text) (htext : text ≠ [])
    (hprintable : ∀ x ∈ text, x ≠ '\n' → isPrintable x = true) (hcolumns : indent + 1 = columns)
    (hindent : (k : Int) < indent)
    (hrest : c.rest = (if fold then '>' else '|') :: (blockHeaderText text ++
      join '\n' ((dropEmptyLast lines).map (indentLine columns))) ++
        '\n' :: (List.replicate k ' ' ++ next)) (hnext : Opens next) :
    ∃ d : Cursor, Goes (blockScalar indent) c (some text) d ∧ d.Stands k next ∧
      c.line < d.line := by
  have hnil := dropEmptyLast_ne_nil h htext
  have hready := h.ready hcolumns
  obtain ⟨hunbegun, hempty⟩ := unbegun_start (headerOf text) indent
  have hending := BlockText.text_ending h.feeds h.ne_nil htext hunbegun (h.whole _ hunbegun hempty)
  have hlines := h.printable hprintable
  rw [blockHeaderText_eq, List.append_assoc, List.singleton_append, feed_join hnil] at hrest
  generalize dropEmptyLast lines = written at *
  have hbehind : c.advance.rest = indicatorText (needsIndicator text) ++
      chompingText (chompingOf text) ++
        (written.flatMap (fun line => '\n' :: indentLine columns line) ++
          '\n' :: (List.replicate k ' ' ++ next)) := by
    rw [rest_advance, hrest, List.cons_append, List.tail_cons, List.append_assoc]
  obtain ⟨more, hmore⟩ := exists_feed columns written (List.replicate k ' ' ++ next)
  have hlength : written.length < c.rest.length ∧ 2 ≤ c.rest.length := by
    have hflat := length_le_flatMap
      (fun line : List Char => List.cons_ne_nil '\n' (indentLine columns line)) written
    rw [hrest]
    simp only [List.length_append, List.length_cons]
    omega
  set d := advanceBy (indicatorText (needsIndicator text) ++
    chompingText (chompingOf text)).length c.advance with hd
  have hdrop : d.rest = written.flatMap (fun line => '\n' :: indentLine columns line) ++
      '\n' :: (List.replicate k ' ' ++ next) := rest_advanceBy_of_rest hbehind
  have hwhite : d.peek?.any isWhite = false := by
    rw [peek?_of_rest (hdrop.trans hmore)]
    rfl
  have hline : d.line = c.line := by rw [hd, (line_advanceBy _ _).1, (line_advance c).1]
  have hheader : Goes (blockHeader (c.rest.length + 1) {}) c.advance (headerOf text) d := by
    obtain ⟨fuel, hfuel⟩ : ∃ n, c.rest.length + 1 = n + 3 := ⟨c.rest.length - 2, by omega⟩
    rw [hfuel]
    exact goes_blockHeader (hmore ▸ hbehind)
  obtain ⟨e, hgoes, hstands, hlater⟩ := goes_blockLines fold (chompingOf text)
    hlines hready (by omega) (by omega : _ < c.rest.length + 1) hdrop hnext
  rw [hending] at hgoes
  exact ⟨e, goes_blockScalar_of_lines hrest hheader hwhite hgoes, hstands, by omega⟩

end GoldenRun.Yaml
