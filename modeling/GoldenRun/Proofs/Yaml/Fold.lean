import GoldenRun.Proofs.Yaml.Block

/-!
# Lines of a block come to its text

A literal block keeps the lines of its text.  A folded block cuts long lines at blanks, and doubles
the line breaks between two lines that may be folded.

* `comeTo_literal`: the lines of a text come to it when they are kept
* `comeTo_folded`: the folded lines of a text come to it when they are unfolded
-/

namespace GoldenRun.Yaml

open GoldenRun.Text

variable {line text piece : List Char} {lines pieces : List (List Char)} {room columns : Nat}
  {b : BlockText} {more : Bool} {n : Nat}

/-- The lines of a text come to it when they are kept. -/
theorem comeTo_literal (columns : Nat) (text : List Char) :
    ComeTo false columns (split '\n' text) text := by
  refine ⟨fun line hline => not_mem_of_mem_split hline, split_ne_nil _ _, fun b hb hempty => ?_⟩
  have hwhole : b.whole = [] := by rw [BlockText.whole, hb.text, hb.begun, hempty]; rfl
  have hjoin : ∀ line (lines : List (List Char)),
      (line :: lines).flatMap (· ++ ['\n']) = join '\n' (line :: lines) ++ ['\n'] := by
    intro line lines
    induction lines generalizing line with
    | nil => simp [join]
    | cons next lines ih =>
      rw [List.flatMap_cons, ih, join_cons (List.cons_ne_nil _ _), List.append_assoc,
        List.append_assoc]
      rfl
  obtain ⟨line, lines, hcons⟩ := List.exists_cons_of_ne_nil (split_ne_nil '\n' text)
  rw [BlockText.foldl_whole_literal, hwhole, List.nil_append, hcons, hjoin, ← hcons, join_split]

/-! ## Folding one line -/

/-- Whether a line begins with something that is neither a blank nor a tab. -/
def IsSolid (line : List Char) : Prop := line.head?.any (fun x => !isWhite x) = true

theorem IsSolid.ne_nil (h : IsSolid line) : line ≠ [] := by
  rintro rfl
  cases h

/-- A line is cut into pieces that are found again with a blank between them; those behind the
first begin with no blank. -/
theorem foldPieces_spec (htab : '\t' ∉ line) : ∃ piece pieces, foldPieces line = piece :: pieces ∧
    join ' ' (piece :: pieces) = line ∧ (∀ p ∈ pieces, IsSolid p) ∧
      (IsSolid line → IsSolid piece) := by
  induction line with
  | nil => exact ⟨[], [], rfl, rfl, by simp, id⟩
  | cons x line ih =>
    obtain ⟨piece, pieces, hpieces, hjoin, hsolid, hfirst⟩ :=
      ih fun h => htab (List.mem_cons_of_mem x h)
    rw [foldPieces]
    split
    · next hcut =>
      rw [Bool.and_eq_true, decide_eq_true_eq] at hcut
      obtain ⟨rfl, hnext⟩ := hcut
      have hline : IsSolid line := by
        cases line with
        | nil => cases hnext
        | cons y line =>
          have hy : y ≠ ' ' := by simpa using hnext
          have hy' : y ≠ '\t' := fun h => htab (by simp [h])
          simp [IsSolid, isWhite, hy, hy']
      refine ⟨[], piece :: pieces, by rw [hpieces], by rw [join_cons (by simp), hjoin]; rfl, ?_, ?_⟩
      · rintro p (_ | ⟨_, hp⟩)
        · exact hfirst hline
        · exact hsolid p hp
      · intro h
        cases h
    · rw [hpieces]
      refine ⟨x :: piece, pieces, rfl, ?_, hsolid, fun h => h⟩
      rw [← hjoin]
      cases pieces <;> rfl

/-- Pieces filled into lines are found again with a blank between them, and no line begins with a
blank. -/
theorem fillLines_spec (room : Nat) (hline : IsSolid line) (hpieces : ∀ p ∈ pieces, IsSolid p) :
    fillLines room line pieces ≠ [] ∧
      join ' ' (fillLines room line pieces) = join ' ' (line :: pieces) ∧
        ∀ p ∈ fillLines room line pieces, IsSolid p := by
  induction pieces generalizing line with
  | nil => exact ⟨by simp [fillLines], rfl, by simpa [fillLines] using hline⟩
  | cons piece pieces ih =>
    obtain ⟨hpiece, hpieces⟩ := List.forall_mem_cons.mp hpieces
    rw [fillLines]
    split
    · obtain ⟨hne, hjoin, hsolid⟩ := ih hpiece hpieces
      refine ⟨List.cons_ne_nil _ _, ?_, List.forall_mem_cons.mpr ⟨hline, hsolid⟩⟩
      rw [join_cons hne, hjoin, join_cons (List.cons_ne_nil _ _)]
    · have hlonger : IsSolid (line ++ ' ' :: piece) := by
        unfold IsSolid at *
        rwa [List.head?_append_of_ne_nil _ (IsSolid.ne_nil hline)]
      obtain ⟨hne, hjoin, hsolid⟩ := ih hlonger hpieces
      refine ⟨hne, hjoin.trans ?_, hsolid⟩
      cases pieces with
      | nil => rfl
      | cons next pieces =>
        rw [join_cons (List.cons_ne_nil _ _), join_cons (List.cons_ne_nil _ _),
          join_cons (List.cons_ne_nil _ _), List.append_assoc, List.cons_append]

/-- The lines into which a line is folded. -/
def foldedLine (room : Nat) (line : List Char) : List (List Char) :=
  if line.head?.all (· = ' ') then [line]
  else match foldPieces line with
    | [] => [line]
    | piece :: pieces => fillLines room piece pieces

theorem foldLine_eq (room : Nat) (line : List Char) :
    foldLine room line = join '\n' (foldedLine room line) := by
  unfold foldLine foldedLine
  split
  · rfl
  · cases hpieces : foldPieces line with
    | nil => rfl
    | cons piece pieces => rfl

/-- A line that begins with no blank is found again with a blank between its folded lines. -/
theorem foldedLine_of_solid (room : Nat) (htab : '\t' ∉ line) (h : IsSolid line) :
    ∃ first rest, foldedLine room line = first :: rest ∧ join ' ' (first :: rest) = line ∧
      IsSolid first ∧ ∀ p ∈ rest, IsSolid p := by
  obtain ⟨piece, pieces, hpieces, hjoin, hsolid, hfirst⟩ := foldPieces_spec htab
  obtain ⟨hne, hfill, hlines⟩ := fillLines_spec room (hfirst h) hsolid
  have hblank : line.head?.all (· = ' ') = false := by
    cases line with
    | nil => cases h
    | cons x line =>
      have hx : x ≠ ' ' := by
        rintro rfl
        cases h
      simp [hx]
  obtain ⟨first, rest, hcons⟩ := List.exists_cons_of_ne_nil hne
  rw [hcons] at hfill hlines
  refine ⟨first, rest, ?_, hfill.trans hjoin, List.forall_mem_cons.mp hlines⟩
  rw [foldedLine, hblank, hpieces, ← hcons]
  rfl

theorem foldedLine_of_blank (h : line.head?.all (· = ' ') = true) :
    foldedLine room line = [line] := if_pos h


/-! ## Folding a text -/

/-- The lines behind the first, folded. -/
def foldedRest (room : Nat) : Bool → Nat → List (List Char) → List (List Char)
  | _, breaks, [] => List.replicate breaks []
  | more, breaks, line :: rest =>
    if line = [] then foldedRest room more (breaks + 1) rest
    else
      let indented := line.head? = some ' '
      List.replicate breaks [] ++ (if !more && !indented then [[]] else []) ++
        foldedLine room line ++ foldedRest room indented 0 rest

/-- The lines of a text, folded. -/
def foldedLines (room : Nat) (text : List Char) : List (List Char) :=
  match split '\n' text with
  | [] => []
  | first :: rest =>
    foldedLine room first ++
      foldedRest room (text.head?.any fun c => c = '\n' || c = ' ') 0 rest

theorem foldedLine_ne_nil (room : Nat) (line : List Char) : foldedLine room line ≠ [] := by
  have hfill : ∀ pieces line, fillLines room line pieces ≠ [] := by
    intro pieces
    induction pieces with
    | nil => exact fun line => by simp [fillLines]
    | cons piece pieces ih =>
      intro line
      rw [fillLines]
      split
      · exact List.cons_ne_nil _ _
      · exact ih _
  unfold foldedLine
  split
  · exact List.cons_ne_nil _ _
  · split
    · exact List.cons_ne_nil _ _
    · exact hfill _ _

theorem foldRest_eq (more : Bool) (n : Nat) (lines : List (List Char)) :
    foldRest room more n lines = (foldedRest room more n lines).flatMap ('\n' :: ·) := by
  have hfeeds : ∀ n, (List.replicate n ([] : List Char)).flatMap ('\n' :: ·) =
      List.replicate n '\n' := by
    intro n
    induction n with
    | zero => rfl
    | succ n ih => rw [List.replicate_succ, List.flatMap_cons, ih]; rfl
  induction lines generalizing more n with
  | nil => rw [foldRest, foldedRest, hfeeds]
  | cons line lines ih =>
    rw [foldRest, foldedRest]
    split
    · exact ih _ _
    · have hline : '\n' :: foldLine room line = (foldedLine room line).flatMap ('\n' :: ·) := by
        obtain ⟨first, rest, hcons⟩ := List.exists_cons_of_ne_nil (foldedLine_ne_nil room line)
        rw [foldLine_eq, hcons, join_eq_flatMap, List.flatMap_cons]
        rfl
      rw [List.flatMap_append, List.flatMap_append, List.flatMap_append, hfeeds, ← hline, ← ih]
      by_cases hdoubled : (!more && !decide (line.head? = some ' ')) = true
      · simp only [if_pos hdoubled]
        simp [List.replicate_succ']
      · simp only [if_neg hdoubled]
        simp [List.replicate_succ']

theorem foldText_eq (room : Nat) (text : List Char) :
    foldText room text = join '\n' (foldedLines room text) := by
  unfold foldText foldedLines
  cases hsplit : split '\n' text with
  | nil => rfl
  | cons first rest =>
    show foldLine room first ++ foldRest room _ 0 rest = join '\n' (foldedLine room first ++ _)
    rw [join_append (foldedLine_ne_nil room first), foldLine_eq, foldRest_eq]

/-- A line that is not empty begins with a blank or with something else. -/
theorem blank_or_solid (htab : '\t' ∉ line) (hne : line ≠ []) :
    line.head? = some ' ' ∨ line.head? ≠ some ' ' ∧ IsSolid line := by
  obtain ⟨x, line, rfl⟩ := List.exists_cons_of_ne_nil hne
  by_cases hx : x = ' '
  · exact .inl (by rw [hx]; rfl)
  · have hx' : x ≠ '\t' := fun h => htab (by simp [h])
    exact .inr ⟨by simpa using hx, by simp [IsSolid, isWhite, hx, hx']⟩

/-- No line break stands in a folded line. -/
theorem not_mem_foldedLine (htab : '\t' ∉ line) (hfeed : '\n' ∉ line)
    (hpiece : piece ∈ foldedLine room line) : '\n' ∉ piece := by
  by_cases hblank : line.head?.all (· = ' ') = true
  · rw [foldedLine_of_blank hblank, List.mem_singleton] at hpiece
    rwa [hpiece]
  · have hne : line ≠ [] := by
      rintro rfl
      exact hblank rfl
    have hsolid : IsSolid line := by
      rcases blank_or_solid htab hne with hhead | ⟨-, hsolid⟩
      · exact absurd (by rw [hhead]; rfl) hblank
      · exact hsolid
    obtain ⟨first, rest, hcons, hjoin, -, -⟩ := foldedLine_of_solid room htab hsolid
    rw [hcons] at hpiece
    intro hmem
    refine hfeed (hjoin ▸ ?_)
    rw [join_eq_flatMap]
    rcases List.mem_cons.mp hpiece with rfl | hpiece
    · exact List.mem_append_left _ hmem
    · exact List.mem_append_right _
        (List.mem_flatMap.mpr ⟨piece, hpiece, List.mem_cons_of_mem _ hmem⟩)

theorem not_mem_foldedRest (htab : ∀ line ∈ lines, '\t' ∉ line)
    (hfeed : ∀ line ∈ lines, '\n' ∉ line) (hpiece : piece ∈ foldedRest room more n lines) :
    '\n' ∉ piece := by
  induction lines generalizing more n with
  | nil =>
    rw [foldedRest] at hpiece
    simp [(List.mem_replicate.mp hpiece).2]
  | cons line lines ih =>
    obtain ⟨htab, htabs⟩ := List.forall_mem_cons.mp htab
    obtain ⟨hfeed, hfeeds⟩ := List.forall_mem_cons.mp hfeed
    rw [foldedRest] at hpiece
    split at hpiece
    · exact ih htabs hfeeds hpiece
    · simp only [List.mem_append] at hpiece
      rcases hpiece with ((hpiece | hpiece) | hpiece) | hpiece
      · simp [(List.mem_replicate.mp hpiece).2]
      · split at hpiece
        · rw [List.mem_singleton.mp hpiece]
          simp
        · cases hpiece
      · exact not_mem_foldedLine htab hfeed hpiece
      · exact ih htabs hfeeds hpiece

namespace BlockText

/-- The line breaks that are owed before the next line with text: one more than `n`, where `more`
tells whether the line before was indented more. -/
def Owes (more : Bool) (n : Nat) (b : BlockText) : Prop :=
  b.begun = true ∧ b.more = more ∧ b.empty = n ∨
    b.begun = false ∧ b.more = false ∧ more = true ∧ b.empty = n + 1

theorem Owes.whole (h : b.Owes more n) : b.whole = b.text ++ List.replicate (n + 1) '\n' := by
  unfold BlockText.whole
  rcases h with ⟨hbegun, -, hempty⟩ | ⟨hbegun, -, -, hempty⟩
  · rw [hbegun, hempty, if_pos rfl, Nat.add_comm]
  · rw [hbegun, hempty]
    rfl

theorem Owes.take_nil (h : b.Owes more n) : (b.take true columns []).Owes more (n + 1) :=
  h.imp (fun ⟨hbegun, hmore, hempty⟩ => ⟨hbegun, hmore, congrArg (· + 1) hempty⟩)
    fun ⟨hbegun, hmore, hthen, hempty⟩ => ⟨hbegun, hmore, hthen, congrArg (· + 1) hempty⟩

/-- Empty lines are owed as well. -/
theorem Owes.replicate (columns : Nat) (h : b.Owes more 0) (n : Nat) :
    ((List.replicate n []).foldl (take true columns) b).Owes more n ∧
      ((List.replicate n []).foldl (take true columns) b).text = b.text := by
  induction n with
  | zero => exact ⟨h, rfl⟩
  | succ n ih =>
    rw [List.replicate_succ', List.foldl_append, List.foldl_cons, List.foldl_nil]
    exact ⟨ih.1.take_nil, ih.2⟩

/-- Folded lines behind a first one are joined by blanks. -/
theorem foldl_text_of_solid (columns : Nat) (hlines : ∀ line ∈ lines, IsSolid line)
    (hbegun : b.begun = true)
    (hempty : b.empty = 0) (hmore : b.more = false) :
    (lines.foldl (take true columns) b).text = b.text ++ lines.flatMap (' ' :: ·) ∧
      (lines.foldl (take true columns) b).Owes false 0 := by
  induction lines generalizing b with
  | nil => exact ⟨by simp, .inl ⟨hbegun, hmore, hempty⟩⟩
  | cons line lines ih =>
    obtain ⟨hline, hlines'⟩ := List.forall_mem_cons.mp hlines
    obtain ⟨x, line, rfl⟩ := List.exists_cons_of_ne_nil hline.ne_nil
    have hx : isWhite x = false := by simpa [IsSolid] using hline
    have hgap : b.gap true x = [' '] := by simp [gap, hx, hmore, hempty, hbegun]
    have htext := text_take true columns (List.cons_ne_nil x line) b
    rw [List.head?_cons, Option.getD_some, hgap] at htext
    rw [List.foldl_cons]
    have hgrown : b.take true columns (x :: line) =
        { b with indent := columns }.grow true (x :: line) := if_neg (List.cons_ne_nil _ _)
    obtain ⟨hfold, howes⟩ := ih (b := b.take true columns (x :: line)) hlines'
      (by rw [hgrown]; rfl) (by rw [hgrown]; rfl) (by rw [hgrown]; simp [grow, hx])
    exact ⟨by rw [hfold, htext, List.flatMap_cons]; simp, howes⟩

/-- The folded lines of a line are taken as the line. -/
theorem foldl_foldedLine (room columns : Nat) (htab : '\t' ∉ line) (hne : line ≠ [])
    (b : BlockText) :
    ((foldedLine room line).foldl (take true columns) b).text =
        b.text ++ b.gap true (line.head?.getD '\n') ++ line ∧
      ((foldedLine room line).foldl (take true columns) b).Owes
        (decide (line.head? = some ' ')) 0 := by
  have hgrown : ∀ line ≠ [], ∀ b : BlockText, b.take true columns line =
      { b with indent := columns }.grow true line := fun line hne b => if_neg hne
  -- A line that begins with a blank stays whole; any other one may be folded.
  rcases blank_or_solid htab hne with hblank | ⟨hhead, hsolid⟩
  · rw [foldedLine_of_blank (by rw [hblank]; rfl), List.foldl_cons, List.foldl_nil,
      text_take _ _ hne, hblank, hgrown line hne]
    refine ⟨rfl, .inl ⟨rfl, ?_, rfl⟩⟩
    simp [grow, hblank, isWhite]
  · obtain ⟨first, rest, hcons, hjoin, hfirst, hrest⟩ :=
      foldedLine_of_solid room htab hsolid
    have hsame : line.head? = first.head? := by
      rw [← hjoin, join_eq_flatMap, List.head?_append_of_ne_nil _ hfirst.ne_nil]
    have hmore : (b.take true columns first).more = false := by
      obtain ⟨x, first, rfl⟩ := List.exists_cons_of_ne_nil hfirst.ne_nil
      rw [hgrown _ (List.cons_ne_nil _ _)]
      simpa [grow, IsSolid] using hfirst
    obtain ⟨htext, howes⟩ := foldl_text_of_solid columns
      (b := b.take true columns first) hrest (by rw [hgrown first hfirst.ne_nil]; rfl)
      (by rw [hgrown first hfirst.ne_nil]; rfl) hmore
    rw [hcons, List.foldl_cons, htext, text_take _ _ hfirst.ne_nil, hsame]
    refine ⟨?_, by rwa [← hsame, decide_eq_false hhead]⟩
    rw [List.append_assoc _ first, ← join_eq_flatMap, hjoin]

/-- What is owed before a line that is kept as it is. -/
theorem Owes.gap_blank (h : b.Owes more n) : b.gap true ' ' = List.replicate (n + 1) '\n' := by
  have hwhite : isWhite ' ' = true := rfl
  rcases h with ⟨hbegun, -, hempty⟩ | ⟨hbegun, -, -, hempty⟩
  · simp [gap, hwhite, hbegun, hempty, Nat.add_comm]
  · simp [gap, hwhite, hbegun, hempty]

/-- What is owed before a line that is folded, behind one that is not. -/
theorem Owes.gap_solid {x : Char} (h : b.Owes true n) (hx : isWhite x = false) :
    b.gap true x = List.replicate (n + 1) '\n' := by
  rcases h with ⟨-, hmore, hempty⟩ | ⟨hbegun, hmore, -, hempty⟩
  · simp [gap, hx, hmore, hempty]
  · simp [gap, hx, hmore, hempty]

/-- What is owed between two lines that are folded: an empty line more was written. -/
theorem Owes.gap_doubled {x : Char} (h : b.Owes false n) (hx : isWhite x = false) :
    (b.take true columns []).gap true x = List.replicate (n + 1) '\n' := by
  rcases h with ⟨-, hmore, hempty⟩ | ⟨-, -, hthen, -⟩
  · have htaken : b.take true columns [] = { b with empty := b.empty + 1 } := if_pos rfl
    simp [gap, hx, htaken, hmore, hempty]
  · cases hthen

/-- The folded lines behind the first are taken as the lines. -/
theorem foldl_foldedRest (htab : ∀ line ∈ lines, '\t' ∉ line) (h : b.Owes more 0) :
    ((foldedRest room more n lines).foldl (take true columns) b).whole =
      b.text ++ List.replicate n '\n' ++ lines.flatMap ('\n' :: ·) ++ ['\n'] := by
  induction lines generalizing more n b with
  | nil =>
    obtain ⟨howes, htext⟩ := h.replicate columns n
    rw [foldedRest, howes.whole, htext, List.replicate_succ']
    simp
  | cons line lines ih =>
    obtain ⟨hline, hlines⟩ := List.forall_mem_cons.mp htab
    rw [foldedRest]
    split
    · next hempty =>
      rw [ih hlines h, hempty, List.replicate_succ', List.flatMap_cons]
      simp
    · next hne =>
      obtain ⟨howes, htext⟩ := h.replicate columns n
      set b' := (List.replicate n []).foldl (take true columns) b with hb'
      -- Between two lines that are folded one more empty line was written, for a single line break
      -- there would come back as a blank.
      have htaken : ∃ d : BlockText, d.text = b.text ∧
          d.gap true (line.head?.getD '\n') = List.replicate (n + 1) '\n' ∧
            (if (!more && !decide (line.head? = some ' ')) = true then [[]] else []).foldl
              (take true columns) b' = d := by
        rcases blank_or_solid hline hne with hblank | ⟨hhead, hsolid⟩
        · exact ⟨b', htext, by rw [hblank]; exact howes.gap_blank, by simp [hblank]⟩
        · obtain ⟨x, line, rfl⟩ := List.exists_cons_of_ne_nil hne
          have hx : isWhite x = false := by simpa [IsSolid] using hsolid
          cases more with
          | true => exact ⟨b', htext, howes.gap_solid hx, by simp⟩
          | false =>
            rw [if_pos (by rw [decide_eq_false hhead]; rfl)]
            exact ⟨b'.take true columns [], htext, howes.gap_doubled hx, rfl⟩
      obtain ⟨d, hd, hgap, htaken⟩ := htaken
      obtain ⟨hfolded, howes'⟩ := foldl_foldedLine room columns hline hne d
      simp only [List.foldl_append, ← hb', htaken]
      rw [ih hlines howes', hfolded, hgap, hd, List.flatMap_cons, List.replicate_succ']
      simp

end BlockText

/-- What is taken from the first line of a text. -/
theorem foldl_foldedLine_first {first : List Char} {rest : List (List Char)} {b : BlockText}
    (room columns : Nat) (htext : text ≠ []) (hjoin : first ++ rest.flatMap ('\n' :: ·) = text)
    (htab : '\t' ∉ first) (hfeed : '\n' ∉ first) (hb : b.Unbegun) (hempty : b.empty = 0) :
    ((foldedLine room first).foldl (BlockText.take true columns) b).text = first ∧
      ((foldedLine room first).foldl (BlockText.take true columns) b).Owes
        (text.head?.any fun c => c = '\n' || c = ' ') 0 := by
  by_cases hnil : first = []
  · subst hnil
    have hhead : (text.head?.any fun c => c = '\n' || c = ' ') = true := by
      cases rest with
      | nil => exact absurd hjoin.symm htext
      | cons line rest => rw [← hjoin]; rfl
    rw [hhead, foldedLine_of_blank rfl]
    exact ⟨hb.text, .inr ⟨hb.begun, hb.more, rfl, congrArg (· + 1) hempty⟩⟩
  · obtain ⟨hfolded, howes⟩ := BlockText.foldl_foldedLine room columns htab hnil b
    obtain ⟨x, first, rfl⟩ := List.exists_cons_of_ne_nil hnil
    have hx : x ≠ '\n' := fun h => hfeed (by simp [h])
    have hhead : (text.head?.any fun c => c = '\n' || c = ' ') =
        decide ((x :: first).head? = some ' ') := by
      rw [← hjoin]
      simp [hx]
    rw [hb.text, hb.gap, hempty] at hfolded
    exact ⟨hfolded, hhead ▸ howes⟩

/-- The folded lines of a text come to it when they are unfolded. -/
theorem comeTo_folded (room columns : Nat) (htext : text ≠ []) (htab : '\t' ∉ text) :
    ComeTo true columns (foldedLines room text) text := by
  obtain ⟨first, rest, hsplit⟩ := List.exists_cons_of_ne_nil (split_ne_nil '\n' text)
  have hjoin : first ++ rest.flatMap ('\n' :: ·) = text := by
    rw [← join_eq_flatMap, ← hsplit, join_split]
  have hfeeds : ∀ line ∈ first :: rest, '\n' ∉ line := fun line hline =>
    not_mem_of_mem_split (hsplit ▸ hline)
  have htabs : ∀ line ∈ first :: rest, '\t' ∉ line := by
    intro line hline hmem
    refine htab (hjoin ▸ ?_)
    rcases List.mem_cons.mp hline with rfl | hline
    · exact List.mem_append_left _ hmem
    · exact List.mem_append_right _
        (List.mem_flatMap.mpr ⟨line, hline, List.mem_cons_of_mem _ hmem⟩)
  obtain ⟨hfeed, hfeeds⟩ := List.forall_mem_cons.mp hfeeds
  obtain ⟨hfirst, hrest⟩ := List.forall_mem_cons.mp htabs
  have hlines : foldedLines room text = foldedLine room first ++
      foldedRest room (text.head?.any fun c => c = '\n' || c = ' ') 0 rest := by
    rw [foldedLines, hsplit]
  refine ⟨fun line hline => ?_, ?_, fun b hb hempty => ?_⟩
  · rw [hlines, List.mem_append] at hline
    rcases hline with hline | hline
    · exact not_mem_foldedLine hfirst hfeed hline
    · exact not_mem_foldedRest hrest hfeeds hline
  · rw [hlines]
    exact List.append_ne_nil_of_left_ne_nil (foldedLine_ne_nil room first) _
  · obtain ⟨htaken, howes⟩ :=
      foldl_foldedLine_first room columns htext hjoin hfirst hfeed hb hempty
    rw [hlines, List.foldl_append, BlockText.foldl_foldedRest hrest howes, htaken,
      List.replicate_zero, List.append_nil, hjoin]

/-! ## What is written -/

/-- The line break at the end of a text is not written. -/
theorem dropLastBreak_join (hfeeds : ∀ line ∈ lines, '\n' ∉ line) (hne : lines ≠ [])
    (hone : lines ≠ [[]]) : dropLastBreak (join '\n' (lines.map (indentLine columns))) =
      join '\n' ((dropEmptyLast lines).map (indentLine columns)) := by
  obtain ⟨lines, line, rfl⟩ := (List.eq_nil_or_concat' lines).resolve_left hne
  by_cases hline : line = []
  · subst hline
    have hlines : lines ≠ [] := by
      rintro rfl
      exact hone rfl
    have hwritten : join '\n' ((lines ++ [[]]).map (indentLine columns)) =
        join '\n' (lines.map (indentLine columns)) ++ ['\n'] := by
      rw [List.map_append, join_append (by simpa using hlines)]
      rfl
    rw [dropEmptyLast_concat_nil, hwritten, dropLastBreak, if_pos (by simp), List.dropLast_concat]
  · have hlast : (join '\n' ((lines ++ [line]).map (indentLine columns))).getLast? =
        line.getLast? := by
      have hindent : (indentLine columns line).getLast? = line.getLast? := by
        rw [indentLine, if_neg hline, List.getLast?_append_of_ne_nil _ hline]
      have hne : indentLine columns line ≠ [] := by
        rw [indentLine, if_neg hline]
        exact List.append_ne_nil_of_right_ne_nil _ hline
      rw [List.map_append, ← hindent]
      by_cases hlines : lines = []
      · rw [hlines]
        rfl
      · rw [join_append (by simpa using hlines), List.getLast?_append_of_ne_nil _ (by simp)]
        simp [List.getLast?_cons_of_ne_nil hne]
    rw [dropEmptyLast_concat hline, dropLastBreak, if_neg]
    rw [hlast]
    intro hfeed
    exact hfeeds line (List.mem_append_right _ List.mem_cons_self) (List.mem_of_getLast? hfeed)

/-- The lines of a block as they are written behind its header. -/
theorem ComeTo.written {fold : Bool} (h : ComeTo fold columns lines text) (htext : text ≠ []) :
    dropLastBreak (indented columns (join '\n' lines)) =
      join '\n' ((dropEmptyLast lines).map (indentLine columns)) := by
  have hsplit := split_join h.ne_nil h.feeds
  rw [← dropLastBreak_join h.feeds h.ne_nil (h.ne_single htext), indented, hsplit]
  rfl

end GoldenRun.Yaml
