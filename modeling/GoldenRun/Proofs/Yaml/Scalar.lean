import GoldenRun.Proofs.Yaml.Fold
import GoldenRun.Proofs.Yaml.NumberText
import Mathlib.Data.Bool.AllAny

/-!
# Scalars are read as they were written

* `Written`: the ways in which a text is written
* `written_scalarText`: a text is written in one of them
* `goes_scalarContent_inline`: a scalar on one line is read as its text
* `goes_scalarContent_block`: so is a block scalar, where block style is possible
-/

namespace GoldenRun.Yaml

open GoldenRun.Number GoldenRun.Text Reading Cursor

variable {text written rest next : List Char} {lines : List (List Char)} {c : Cursor} {x : Char}
  {columns k : Nat} {indent : Int} {fold : Bool} {context : Context}

/-! ## How a text is written -/

/-- A text as it is written on one line. -/
inductive Inline (text : List Char) : List Char → Prop where
  /-- As it is, if it means itself. -/
  | plain (h : IsPlain text) (begins : text.head?.any beginsPlain = true)
      (clear : isAmbiguous (String.ofList text) = false) : Inline text text
  /-- Between single quotes. -/
  | single (printable : ∀ x ∈ text, isPrintable x = true) : Inline text (singleText text)
  /-- Between double quotes. -/
  | double : Inline text (doubleText text)

/-- A block of lines behind its header. -/
def blockText (fold : Bool) (columns : Nat) (text : List Char) (lines : List (List Char)) :
    List Char :=
  (if fold then '>' else '|') ::
    (blockHeaderText text ++ join '\n' ((dropEmptyLast lines).map (indentLine columns)))

/-- A text as it is written as a block. -/
inductive Block (columns : Nat) (text : List Char) : List Char → Prop where
  /-- The lines come to the text. -/
  | lines (fold : Bool) (lines : List (List Char)) (h : ComeTo fold columns lines text)
      (ne_nil : text ≠ []) (printable : ∀ x ∈ text, x ≠ '\n' → isPrintable x = true) :
      Block columns text (blockText fold columns text lines)

theorem isPlain_of_isPlainText (h : isPlainText text = true) :
    IsPlain text ∧ text.head?.any beginsPlain = true := by
  rw [isPlainText, Bool.and_eq_true, Bool.and_eq_true] at h
  exact ⟨⟨.inl h.1.1, h.1.2, h.2⟩, h.1.1⟩

theorem inline_plain (h : isPlainText text = true)
    (clear : isAmbiguous (String.ofList text) = false) : Inline text text := by
  obtain ⟨hplain, hbegins⟩ := isPlain_of_isPlainText h
  exact .plain hplain hbegins clear

/-- Without single quotes in it, a text stands between single quotes as it is. -/
theorem singleText_of_not_mem (h : '\'' ∉ text) : singleText text = '\'' :: (text ++ ['\'']) := by
  have hsame : text.flatMap (fun c => if c = '\'' then ['\'', '\''] else [c]) = text := by
    induction text with
    | nil => rfl
    | cons x text ih =>
      obtain ⟨hx, htext⟩ := not_or.mp (List.mem_cons.not.mp h)
      rw [List.flatMap_cons, if_neg (Ne.symm hx), ih htext]
      rfl
  rw [singleText, hsame]

theorem printable_of_digit (h : x.isDigit = true) : isPrintable x = true := by
  rw [Char.isDigit, Bool.and_eq_true, decide_eq_true_eq, decide_eq_true_eq] at h
  have hlow : 48 ≤ x.toNat := h.1
  have hhigh : x.toNat ≤ 57 := h.2
  have hrange : 0x20 ≤ x.toNat ∧ x.toNat ≤ 0x7E := by omega
  simp [isPrintable, hrange]

/-- The characters of a number in base sixty. -/
theorem mem_of_isOldSexagesimal (h : isOldSexagesimal text = true) (hx : x ∈ text) :
    x.isDigit = true ∨ x ∈ ['_', ':', '.', '+', '-'] := by
  have hdigit : ∀ piece : List Char, piece.all (fun c => c.isDigit || c = '_') = true →
      x ∈ piece → x.isDigit = true ∨ x ∈ ['_', ':', '.', '+', '-'] := by
    intro piece hpiece hx
    have hall := List.all_eq_true.mp hpiece x hx
    rw [Bool.or_eq_true, decide_eq_true_eq] at hall
    exact hall.imp id fun h => by simp [h]
  have hbody : x ∈ (takeSign text).2 ∨ x = '+' ∨ x = '-' := by
    unfold takeSign
    split
    · exact (List.mem_cons.mp hx).symm.imp id .inl
    · exact (List.mem_cons.mp hx).symm.imp id .inr
    · exact .inl hx
  rcases hbody with hbody | hsign
  · rw [← join_split ':' (takeSign text).2] at hbody
    rcases mem_join hbody with hcolon | ⟨piece, hpiece, hx⟩
    · exact .inr (by simp [hcolon])
    · rw [← List.mem_reverse] at hpiece
      unfold isOldSexagesimal at h
      split at h
      · next last more rest hreverse =>
        rw [hreverse] at hpiece
        simp only [Bool.and_eq_true, List.all_eq_true] at h
        obtain ⟨⟨hmore, -, hwhole⟩, hfraction⟩ := h
        rcases List.mem_cons.mp hpiece with rfl | hpiece
        · rw [← List.takeWhile_append_dropWhile (p := fun c => decide (c ≠ '.')) (l := piece)] at hx
          rcases List.mem_append.mp hx with hx | hx
          · exact hdigit _ (List.all_eq_true.mpr hwhole) hx
          · cases hdrop : piece.dropWhile fun c => decide (c ≠ '.') with
            | nil =>
              rw [hdrop] at hx
              cases hx
            | cons y behind =>
              have hy : y = '.' := by
                have hhead := List.head?_dropWhile_not (fun c => decide (c ≠ '.')) piece
                rw [hdrop] at hhead
                simpa using hhead
              rw [hdrop] at hx hfraction
              rcases List.mem_cons.mp hx with rfl | hx
              · exact .inr (by simp [hy])
              · exact hdigit _ (List.all_eq_true.mpr hfraction) hx
        · exact hdigit piece (List.all_eq_true.mpr (hmore piece hpiece).2) hx
      · cases h
  · exact .inr (by rcases hsign with rfl | rfl <;> decide)

/-- The words and numbers that once had a meaning may stand between single quotes as they are. -/
theorem printable_of_old {text : String}
    (h : (oldTruthWords.contains text || isOldSexagesimal text.toList) = true) :
    ∀ x ∈ text.toList, isPrintable x = true ∧ x ≠ '\'' := by
  intro x hx
  rw [Bool.or_eq_true] at h
  rcases h with hword | hnumber
  · have hall : ∀ word ∈ oldTruthWords,
        (word.toList.all fun x => isPrintable x = true ∧ x ≠ '\'') = true := by
      decide +kernel
    exact List.all_iff_forall_prop.mp (hall text (by simpa using hword)) x hx
  · rcases mem_of_isOldSexagesimal hnumber hx with hdigit | hmark
    · refine ⟨printable_of_digit hdigit, ?_⟩
      rintro rfl
      exact absurd hdigit (by decide)
    · have hall : ∀ x ∈ ['_', ':', '.', '+', '-'], isPrintable x = true ∧ x ≠ '\'' :=
        List.all_iff_forall_prop.mp (by decide)
      exact hall x hmark

/-- What a style asks of a text. -/
def ScalarStyle.Suits (text : List Char) : ScalarStyle → Prop
  | .plain => isPlainText text = true ∧ isAmbiguous (String.ofList text) = false
  | .single => ∀ x ∈ text, isPrintable x = true
  | .double => True
  | .literal | .folded => ∀ x ∈ text, x ≠ '\n' → isPrintable x = true

/-- The style that is chosen suits the text. -/
theorem suits_scalarStyle (room : Nat) (text : List Char) :
    (scalarStyle false room text).Suits text := by
  unfold scalarStyle
  dsimp only
  by_cases hcontrol : (text.any fun c => !isPrintable c && (false || c != '\n')) = true
  · rw [if_pos hcontrol]
    trivial
  have hprintable : ∀ x ∈ text, x ≠ '\n' → isPrintable x = true := by
    intro x hx hfeed
    by_contra hnot
    exact hcontrol (List.any_eq_true.mpr ⟨x, hx, by simp [hnot, hfeed]⟩)
  rw [if_neg hcontrol]
  generalize (!false && (split '\n' text).any (isFoldable room)) = long
  by_cases hline : (false || !(text.contains '\n' || long)) = true
  · have hfeed : '\n' ∉ text := by
      intro hmem
      rw [Bool.false_or, Bool.not_eq_true', Bool.or_eq_false_iff] at hline
      simp [hmem] at hline
    rw [if_pos hline]
    split
    · next hplain => simpa [ScalarStyle.Suits] using hplain
    · exact fun x hx => hprintable x hx fun h => hfeed (h ▸ hx)
  · rw [if_neg hline]
    cases long with
    | false => exact hprintable
    | true => exact hprintable

/-- A text is written on one line or as a block. -/
theorem written_scalarText (level : Nat) (text : String) :
    Inline text.toList (scalarText false level text) ∨
      Block (indentWidth * max 1 level) text.toList (scalarText false level text) := by
  unfold scalarText
  dsimp only
  by_cases hnil : text.toList = []
  · rw [if_pos hnil, hnil]
    exact .inl (.single (by simp))
  by_cases hold : (oldTruthWords.contains text || isOldSexagesimal text.toList) = true
  · have hprintable := printable_of_old hold
    rw [if_neg hnil, if_pos hold, ← singleText_of_not_mem fun h => (hprintable _ h).2 rfl]
    exact .inl (.single fun x hx => (hprintable x hx).1)
  rw [if_neg hnil, if_neg hold]
  generalize max (min lineWidth leastWidth) (lineWidth - indentWidth * max 1 level) = room
  have hsuits := suits_scalarStyle room text.toList
  cases hstyle : scalarStyle false room text.toList with
  | plain =>
    rw [hstyle] at hsuits
    exact .inl (inline_plain hsuits.1 hsuits.2)
  | single =>
    rw [hstyle] at hsuits
    exact .inl (.single hsuits)
  | double => exact .inl .double
  | literal =>
    rw [hstyle] at hsuits
    have hlines := comeTo_literal (indentWidth * max 1 level) text.toList
    have hwritten := hlines.written hnil
    rw [join_split] at hwritten
    simp only [hwritten]
    exact .inr (.lines false _ hlines hnil hsuits)
  | folded =>
    rw [hstyle] at hsuits
    have htab : '\t' ∉ text.toList := fun hmem =>
      absurd (hsuits '\t' hmem (by decide)) (by decide)
    have hlines := comeTo_folded room (indentWidth * max 1 level) hnil htab
    have hwritten := hlines.written hnil
    rw [← foldText_eq] at hwritten
    simp only [hwritten]
    exact .inr (.lines true _ hlines hnil hsuits)

/-! ## How a scalar is read -/

/-- A block scalar is read only where one begins. -/
theorem goes_blockScalar_none (hbar : c.sees '|' = false) (hangle : c.sees '>' = false) :
    Goes (blockScalar indent) c none c := by
  rw [blockScalar]
  refine .cursor_bind ?_
  rw [hbar, hangle]
  exact .pure _ _

theorem goes_singleScalar_none (h : c.sees '\'' = false) : Goes singleScalar c none c := by
  rw [singleScalar]
  refine .cursor_bind ?_
  rw [h]
  exact .pure _ _

theorem goes_doubleScalar_none (h : c.sees '"' = false) : Goes doubleScalar c none c := by
  rw [doubleScalar]
  refine .cursor_bind ?_
  rw [h]
  exact .pure _ _

theorem goes_aliasNode_none (h : c.sees '*' = false) : Goes aliasNode c none c := by
  have hname : Goes (markedName '*' .namelessAlias) c none c := by
    rw [markedName]
    refine .cursor_bind ?_
    rw [h]
    exact .pure _ _
  rw [aliasNode]
  exact .bind hname (.pure _ _)

theorem goes_blockScalar_if (hbar : c.sees '|' = false) (hangle : c.sees '>' = false)
    (context : Context) :
    Goes (if context.isBlock then blockScalar indent else pure none) c none c := by
  split
  · exact goes_blockScalar_none hbar hangle
  · exact .pure _ _

/-- What is read as the content of a node that is a scalar. -/
def scalarOf (tag : Option String) (text : List Char) : Content where
  tag
  name := none
  found := some (some .scalar, .string (String.ofList text))

/-- A plain scalar is read where no other one begins. -/
theorem goes_scalarContent_plain {d : Cursor} (context : Context) (hcontext : context ≠ .flowIn)
    (h : IsPlain text) (hrest : c.rest = text ++ rest)
    (hread : Goes (plainScalar false indent) c (some text) d) :
    Goes (scalarContent context indent none none) c (scalarOf (some plainTag) text) d := by
  have hnot : ∀ y ∈ ['|', '>', '\'', '"', '*'], c.sees y = false := by
    intro y hy
    have hrefuses := not_refusesPlain h.starts hrest
    obtain ⟨x, text, rfl⟩ := List.exists_cons_of_ne_nil h.ne_nil
    rw [sees_of_rest hrest, decide_eq_false_iff_not]
    rintro rfl
    have hpeek := peek?_of_rest hrest
    rw [refusesPlain, hpeek] at hrefuses
    simp only [Bool.or_eq_false_iff] at hrefuses
    have hmarks : ∀ y ∈ ['|', '>', '\'', '"', '*'],
        "#&*!|>'\"%@\x60".toList.contains y = true := List.all_iff_forall_prop.mp (by decide)
    rw [hmarks x hy] at hrefuses
    cases hrefuses.1.2
  rw [scalarContent]
  refine .bind (goes_blockScalar_if (hnot _ (by decide)) (hnot _ (by decide)) context) ?_
  refine .bind (goes_singleScalar_none (hnot _ (by decide))) ?_
  refine .bind (goes_doubleScalar_none (hnot _ (by decide))) ?_
  refine .bind (goes_aliasNode_none (hnot _ (by decide))) ?_
  have hflow : decide (context = .flowIn) = false := decide_eq_false hcontext
  dsimp only
  rw [hflow]
  exact .bind hread (.pure _ _)

/-- A scalar on one line is read as its text. -/
theorem goes_scalarContent_inline (context : Context) (hcontext : context ≠ .flowIn)
    (h : Inline text written) (hline : c.InLine) (htab : c.tab = none)
    (hrest : c.rest = written ++ '\n' :: (List.replicate k ' ' ++ next)) (hnext : Opens next)
    (hindent : (k : Int) < indent) :
    ∃ tag, Goes (scalarContent context indent none none) c (scalarOf tag text)
        (advanceBy written.length c) ∧
      (tag = none ∨ tag = some plainTag ∧ isAmbiguous (String.ofList text) = false) := by
  cases h with
  | plain h begins clear =>
    exact ⟨some plainTag, goes_scalarContent_plain _ hcontext h hrest
      (goes_plainScalar_line h hline.clear htab hrest hnext hindent), .inr ⟨rfl, clear⟩⟩
  | single hprintable =>
    refine ⟨none, ?_, .inl rfl⟩
    have hsees := sees_of_rest (x := '\'') hrest
    rw [scalarContent]
    refine .bind (goes_blockScalar_if (hsees _) (hsees _) context) ?_
    refine .bind (goes_singleScalar hprintable hrest (by simp) hline) ?_
    exact .pure _ _
  | double =>
    refine ⟨none, ?_, .inl rfl⟩
    have hsees := sees_of_rest (x := '"') hrest
    rw [scalarContent]
    refine .bind (goes_blockScalar_if (hsees _) (hsees _) context) ?_
    refine .bind (goes_singleScalar_none (hsees _)) ?_
    refine .bind (goes_doubleScalar hrest hline) ?_
    exact .pure _ _

/-- A block scalar is read as its text, where block style is possible. -/
theorem goes_scalarContent_block (context : Context) (hcontext : context.isBlock = true)
    (h : Block columns text written) (hcolumns : indent + 1 = columns)
    (hrest : c.rest = written ++ '\n' :: (List.replicate k ' ' ++ next)) (hnext : Opens next)
    (hindent : (k : Int) < indent) :
    ∃ d : Cursor, Goes (scalarContent context indent none none) c (scalarOf none text) d ∧
      d.Stands k next ∧ c.line < d.line := by
  cases h with
  | lines fold lines h ne_nil printable =>
    obtain ⟨d, hgoes, hstands, hlater⟩ :=
      goes_blockScalar h ne_nil printable hcolumns hindent hrest hnext
    refine ⟨d, ?_, hstands, hlater⟩
    rw [scalarContent, if_pos hcontext]
    exact .bind hgoes (.pure _ _)

/-- Where block style is not possible, nothing is read of a block scalar. -/
theorem goes_scalarContent_refused (indent : Int) (h : Block columns text written)
    (hrest : c.rest = written ++ rest) :
    Goes (scalarContent .flowOut indent none none) c { tag := none, name := none } c := by
  cases h with
  | lines fold lines h ne_nil printable =>
    have hsees := sees_of_rest (x := if fold then '>' else '|') hrest
    have hrefuses : c.refusesPlain false = true := by
      have hpeek := peek?_of_rest hrest
      rw [refusesPlain, hpeek]
      cases fold <;> rfl
    have hplain : Goes (plainScalar false indent) c none c := by
      rw [plainScalar]
      refine .cursor_bind ?_
      rw [hrefuses]
      exact .pure _ _
    rw [scalarContent]
    refine .bind (.pure _ _) ?_
    refine .bind (goes_singleScalar_none (by rw [hsees]; cases fold <;> rfl)) ?_
    refine .bind (goes_doubleScalar_none (by rw [hsees]; cases fold <;> rfl)) ?_
    refine .bind (goes_aliasNode_none (by rw [hsees]; cases fold <;> rfl)) ?_
    exact .bind hplain (.pure _ _)

/-- A text is read as it was written, where block style is possible. -/
theorem goes_scalarContent_text (context : Context) (hcontext : context.isBlock = true)
    (level : Nat) (s : String) (hcolumns : indent + 1 = (indentWidth * max 1 level : Nat))
    (hline : c.InLine)
    (htab : c.tab = none)
    (hrest : c.rest = scalarText false level s ++ '\n' :: (List.replicate k ' ' ++ next))
    (hnext : Opens next) (hindent : (k : Int) < indent) :
    ∃ tag d, Goes (scalarContent context indent none none) c (scalarOf tag s.toList) d ∧
      d.Leads c.line k next ∧ (tag = none ∨ tag = some plainTag ∧ isAmbiguous s = false) := by
  have hnotFlow : context ≠ .flowIn := by
    rintro rfl
    cases hcontext
  rcases written_scalarText level s with h | h
  · obtain ⟨tag, hgoes, htag⟩ :=
      goes_scalarContent_inline context hnotFlow h hline htab hrest hnext hindent
    have hbehind : (advanceBy (scalarText false level s).length c).rest =
        '\n' :: (List.replicate k ' ' ++ next) := rest_advanceBy_of_rest hrest
    have hleads := leads_of_feed hbehind hnext
    rw [(line_advanceBy _ c).1] at hleads
    rw [String.ofList_toList] at htag
    exact ⟨tag, _, hgoes, hleads, htag⟩
  · obtain ⟨d, hgoes, hstands, hlater⟩ :=
      goes_scalarContent_block context hcontext h hcolumns hrest hnext hindent
    exact ⟨none, d, hgoes, hstands.leads hnext hlater, .inl rfl⟩

/-! ## How a scalar begins -/

/-- Whether a text can begin with a character, and nothing else can. -/
def leadsText (x : Char) : Bool :=
  !isSpacing x && !(['#', '!', '&', '[', '{', '-', '?', ':'].contains x)

theorem leadsText_of_beginsPlain (h : beginsPlain x = true) : leadsText x = true := by
  rw [beginsPlain, Bool.and_eq_true, Bool.and_eq_true, Bool.not_eq_true', Bool.not_eq_true'] at h
  obtain ⟨⟨hprintable, hwhite⟩, hmark⟩ := h
  have hspacing : isSpacing x = false := by
    rw [isSpacing, hwhite, (not_control_of_printable hprintable).2]
    rfl
  simp at hmark
  simp [leadsText, hspacing, hmark]

theorem leadsText_of_written (h : Inline text written ∨ Block columns text written) :
    ∃ x more, written = x :: more ∧ leadsText x = true := by
  rcases h with h | h
  · cases h with
    | plain h begins clear =>
      obtain ⟨x, more, rfl⟩ := List.exists_cons_of_ne_nil h.ne_nil
      exact ⟨x, more, rfl, leadsText_of_beginsPlain begins⟩
    | single => exact ⟨'\'', _, rfl, by decide⟩
    | double => exact ⟨'"', _, rfl, by decide⟩
  · cases h with
    | lines fold => exact ⟨_, _, rfl, by cases fold <;> decide⟩

end GoldenRun.Yaml
