import GoldenRun.Proofs.Yaml.Node

/-!
# Collections are read as they were written

* `goes_item`: an item of a sequence is read as the text that it is
* `readsBack_list`: a sequence of texts is read back as the value of a key
-/

namespace GoldenRun.Yaml

open GoldenRun.Number GoldenRun.Text Reading Cursor

variable {text written rest next : List Char} {c d : Cursor} {x : Char} {k fuel : Nat}
  {parent indent : Int} {compose : Compose} {name : Option String}

/-! ## Items -/

/-- A text begins here, and nothing else. -/
structure Cursor.AtText (c : Cursor) : Prop where
  /-- It is a scalar. -/
  scalar : c.AtScalar
  /-- No mark of a collection is next. -/
  marks : c.sees '-' = false ∧ c.sees '?' = false ∧ c.sees ':' = false

theorem atText_of_leads (hx : leadsText x = true) (hrest : c.rest = x :: rest) : c.AtText := by
  refine ⟨⟨x, _, hrest, leadsScalar_of_leadsText hx⟩, ?_⟩
  rw [leadsText, Bool.and_eq_true, Bool.not_eq_true', Bool.not_eq_true'] at hx
  have hmark := hx.2
  simp at hmark
  simp [sees_of_rest hrest, hmark]

theorem atText_of_written {columns : Nat} (h : Inline text written ∨ Block columns text written)
    (hrest : c.rest = written ++ rest) : c.AtText := by
  obtain ⟨x, more, rfl, hx⟩ := leadsText_of_written h
  exact atText_of_leads hx hrest

theorem Cursor.AtScalar.not_atEnd (h : c.AtScalar) : c.atEnd = false := by
  obtain ⟨x, rest, hrest, -⟩ := h
  rw [atEnd, hrest]
  rfl

theorem goes_blockSequence_none (h : c.AtText) (htab : c.tab = none) :
    Goes (blockSequence compose indent none) c none c := by
  have hentries : Goes (sequenceEntries compose indent none (c.rest.length + 1) none) c none c := by
    rw [sequenceEntries]
    refine .cursor_bind ?_
    simp only [h.scalar.not_atEnd, htab, h.marks.1, Bool.false_and, Bool.not_false,
      Bool.false_eq_true, if_false, if_true]
    exact .pure _ _
  rw [blockSequence]
  refine .cursor_bind ?_
  rw [htab]
  refine .bind (.anchor_none _ _) ?_
  exact .bind hentries (.pure _ _)

/-- Without an explicit key there is nothing to settle. -/
theorem goes_settle {m : MappingState} (h : m.atExplicit = false) : Goes m.settle c m c := by
  rw [MappingState.settle, h]
  exact .pure _ _

/-- Where no entry was read, a mapping that ends comes to something else. -/
theorem goes_finish {m : MappingState} (h : m.atExplicit = false) (hdetected : m.detected = false)
    (otherwise : MappingAttempt) : Goes (m.finish otherwise) c otherwise c := by
  rw [MappingState.finish]
  refine .bind (goes_settle h) ?_
  rw [hdetected]
  exact .pure _ _

theorem skipWhile_of_not {p : Char → Bool} (h : c.rest.head?.any p = false) :
    c.skipWhile p = c := by
  unfold skipWhile
  cases hrest : c.rest with
  | nil => rfl
  | cons x rest =>
    rw [hrest, List.head?_cons, Option.any_some] at h
    rw [List.takeWhile_cons, h]
    rfl

/-- What comes of a node that was read in search of a key, and is none. -/
inductive Cursor.NoKey (c d : Cursor) (node : Node) : MappingAttempt → Prop where
  /-- The line ends behind it. -/
  | single (present : node.present = true) (line : d.line = c.line)
      (feed : d.rest.head? = some '\n') : NoKey c d node (.single node)
  /-- Nothing was read. -/
  | dropped (present : node.present = false) (same : d = c) : NoKey c d node .dropped

/-- Where a text begins, the beginning of a first entry is a single node or nothing. -/
theorem goes_entryStart_stop {node : Node} {attempt : MappingAttempt} {m : MappingState}
    (h : c.AtText) (hexplicit : m.atExplicit = false) (hdetected : m.detected = false)
    (hread : Goes (compose indent .flowOut false true) c node d)
    (hnokey : c.NoKey d node attempt) : Goes (entryStart compose indent m) c (.stop attempt) d := by
  rw [entryStart]
  refine .cursor_bind ?_
  simp only [h.marks.2.1, h.marks.2.2, Bool.false_and, Bool.false_eq_true, if_false]
  refine .bind hread ?_
  cases hnokey with
  | single hpresent hline hfeed =>
    have hskip : d.skipWhile isWhite = d := skipWhile_of_not (by rw [hfeed]; rfl)
    have hcolon : d.sees ':' = false := by
      rw [sees, hfeed]
      rfl
    simp only [hpresent, Bool.not_true, Bool.false_eq_true, if_false]
    refine .cursor_bind ?_
    simp only [hline, if_true, hskip]
    refine .moveTo_bind ?_
    simp only [hcolon, hdetected, Bool.false_eq_true, if_false]
    exact .pure _ _
  | dropped hpresent hsame =>
    subst hsame
    simp only [hpresent, Bool.not_false, if_true]
    refine .bind (goes_finish ?_ ?_ .dropped) (.pure _ _)
    · exact hexplicit
    · exact hdetected

/-- Where a text begins, an attempt to read a block mapping reads a node. -/
theorem goes_blockMapping {node : Node} {attempt : MappingAttempt} {flowIndent : Int}
    (h : c.AtText) (htab : c.tab = none)
    (hread : Goes (compose flowIndent .flowOut false true) c node d)
    (hnokey : c.NoKey d node attempt) :
    Goes (blockMapping compose indent flowIndent none) c attempt d := by
  have hentries : Goes (mappingEntries compose indent flowIndent (c.rest.length + 1)
      { gathering := { slot := none } }) c attempt d := by
    rw [mappingEntries]
    refine .cursor_bind ?_
    simp only [h.scalar.not_atEnd, htab, Bool.false_eq_true, if_false]
    exact .bind (goes_entryStart_stop h rfl rfl hread hnokey) (.pure _ _)
  rw [blockMapping]
  refine .cursor_bind ?_
  rw [htab]
  exact .bind (.anchor_none _ _) hentries

/-- What is read in search of a key where a text on one line stands is the text. -/
theorem goes_compose_flowOut_inline (compose : Compose) (h : Inline text written)
    (hscalar : c.AtScalar) (hline : c.InLine) (htab : c.tab = none)
    (hrest : c.rest = written ++ '\n' :: (List.replicate k ' ' ++ next)) (hnext : Opens next)
    (hindent : (k : Int) < indent) :
    ∃ node : Node, Goes (composeWith compose indent .flowOut false true) c node
        (advanceBy written.length c) ∧ node.present = true ∧ node.kind = some .scalar ∧
      node.value = .string (String.ofList text) := by
  obtain ⟨tag, hread, htag⟩ := goes_scalarContent_inline .flowOut (by decide) h hline htab hrest
    hnext hindent
  obtain ⟨node, hnode, hpresent, hkind, hvalue⟩ :=
    goes_node_of_text (c := advanceBy written.length c) htag
  rw [String.toList_ofList] at hnode
  refine ⟨node, ?_, hpresent, hkind, hvalue⟩
  exact goes_compose_scalar (goes_nodeProperties_here (hscalar.not_sees (by decide))
    (hscalar.not_sees (by decide))) hscalar hread rfl hnode

/-- What is read in search of a key where a block scalar stands is nothing. -/
theorem goes_compose_flowOut_block {columns : Nat} (compose : Compose) (indent : Int)
    (h : Block columns text written)
    (hscalar : c.AtScalar) (hrest : c.rest = written ++ rest) :
    ∃ node : Node, Goes (composeWith compose indent .flowOut false true) c node c ∧
      node.present = false := by
  have hread := goes_nodeContent_scalar compose false true hscalar
    (goes_scalarContent_refused indent h hrest) rfl rfl
  refine ⟨{}, ?_, rfl⟩
  rw [composeWith]
  refine .bind (goes_nodeProperties_here (hscalar.not_sees (by decide))
    (hscalar.not_sees (by decide))) (.bind hread ?_)
  exact .bind (.anchor_none _ _) (.pure _ _)

/-- What an attempt to read a block mapping comes to without tag and anchor. -/
def MappingAttempt.content : MappingAttempt → Content
  | .mapping entries => { tag := none, name := none, found := some (some .mapping, .map entries) }
  | .single node => { tag := none, name := none, found := some (node.kind, node.value) }
  | .nothing | .dropped => { tag := none, name := none }

/-- Where no sequence begins, a block collection is what the attempt to read a mapping comes to. -/
theorem goes_blockContent {attempt : MappingAttempt} {flowIndent : Int} (indent : Int)
    (newLine : Bool)
    (hsequence : Goes (blockSequence compose indent none) c none c)
    (hmapping : Goes (blockMapping compose indent flowIndent none) c attempt d) :
    Goes (blockContent compose indent flowIndent (bare newLine true)) c attempt.content d := by
  rw [blockContent]
  refine .bind hsequence (.bind hmapping ?_)
  cases attempt <;> exact .pure _ _

/-- The content of an item of a sequence is the text that it is. -/
theorem goes_innerContent_item {s : String} (compose : Compose) (hline : c.InLine)
    (htab : c.tab = none)
    (hrest : c.rest = scalarText false 2 s ++ '\n' :: (List.replicate k ' ' ++ next))
    (hnext : Opens next) (hindent : (k : Int) < 3) :
    ∃ d : Cursor, Goes (innerContent (composeWith compose) .blockIn 3 true (bare false true)) c
      (scalarOf none s.toList) d ∧ d.Leads c.line k next := by
  have hwritten := written_scalarText 2 s
  have htext := atText_of_written hwritten hrest
  rcases hwritten with h | h
  · obtain ⟨node, hread, hpresent, hkind, hvalue⟩ := goes_compose_flowOut_inline compose
      h htext.scalar hline htab hrest hnext hindent
    set d := advanceBy (scalarText false 2 s).length c with hd
    have hbehind : d.rest = '\n' :: (List.replicate k ' ' ++ next) :=
      rest_advanceBy_of_rest hrest
    have hsame : d.line = c.line := (line_advanceBy _ c).1
    have hcontent := goes_blockContent c.column false (goes_blockSequence_none htext htab)
      (goes_blockMapping htext htab hread (.single hpresent hsame (by rw [hbehind]; rfl)))
    rw [MappingAttempt.content, hkind, hvalue] at hcontent
    refine ⟨d, ?_, hsame ▸ leads_of_feed hbehind hnext⟩
    rw [innerContent]
    refine .cursor_bind ?_
    simp only [if_true]
    exact .bind hcontent (.pure _ _)
  · obtain ⟨node, hread, habsent⟩ := goes_compose_flowOut_block compose 3 h
      htext.scalar hrest
    obtain ⟨d, hblock, hstands, hlater⟩ := goes_scalarContent_block .blockIn rfl h rfl
      hrest hnext hindent
    have hcontent := goes_blockContent c.column false (goes_blockSequence_none htext htab)
      (goes_blockMapping htext htab hread (.dropped habsent rfl))
    refine ⟨d, ?_, hstands.leads hnext hlater⟩
    rw [innerContent]
    refine .cursor_bind ?_
    simp only [if_true]
    exact .bind hcontent (goes_flowContent htext.scalar hblock rfl true)

/-- An item of a sequence is read as the text that it is. -/
theorem goes_item {s : String} (compose : Compose) (hline : c.InLine) (htab : c.tab = none)
    (hrest : c.rest = scalarText false 2 s ++ '\n' :: (List.replicate k ' ' ++ next))
    (hnext : Opens next) (hindent : (k : Int) < 3) :
    ∃ (node : Node) (d : Cursor),
      Goes (composeWith (composeWith compose) 2 .blockIn false true) c node d ∧
        node.value = .string s ∧ d.Leads c.line k next := by
  have hscalar := (atText_of_written (written_scalarText 2 s) hrest).scalar
  obtain ⟨d, hinner, hleads⟩ := goes_innerContent_item compose hline htab hrest hnext hindent
  refine ⟨{ present := true, kind := some .scalar, value := .string (String.ofList s.toList) }, d,
    ?_, by rw [String.ofList_toList], hleads⟩
  rw [composeWith]
  refine .bind (goes_nodeProperties_here (hscalar.not_sees (by decide))
    (hscalar.not_sees (by decide))) (.bind (d := d) ?_ goes_node_text)
  rw [nodeContent]
  exact hinner

/-! ## Sequences of texts -/

/-- An item of a sequence that is the value of a key. -/
def itemLine (s : String) : List Char :=
  '\n' :: (List.replicate 2 ' ' ++ '-' :: ' ' :: scalarText false 2 s)

theorem itemLine_ne_nil (s : String) : itemLine s ≠ [] := List.cons_ne_nil _ _

section

variable (level : Nat) (compact : Bool)

theorem nodeText_string (s : String) :
    nodeText level compact (.string s) = scalarText false level s := rfl

theorem nodeText_number (x : Binary64) : nodeText level compact (.number x) = numberText x := rfl

theorem nodeText_list (v : Value) (items : List Value) :
    nodeText level compact (.list (v :: items)) = itemsText level compact (v :: items) := rfl

theorem nodeText_map (e : String × Value) (entries : Entries) :
    nodeText level compact (.map (e :: entries)) = entriesText level compact (e :: entries) := rfl

end

/-- Behind a mark a text stands on the same line. -/
theorem marked_scalarText (mark : Char) (level : Nat) (s : String) :
    marked mark (scalarText false level s) = mark :: ' ' :: scalarText false level s := by
  obtain ⟨x, more, hcons, hx⟩ := leadsText_of_written (written_scalarText level s)
  have hhead : (scalarText false level s).head? ≠ some '\n' := by
    rw [hcons, List.head?_cons]
    rintro h
    rw [Option.some.inj h] at hx
    exact absurd hx (by decide)
  unfold marked
  exact if_neg hhead

theorem itemsText_strings (items : List String) :
    itemsText 1 false (items.map .string) = items.flatMap itemLine := by
  induction items with
  | nil => simp [itemsText]
  | cons s items ih =>
    simp [itemsText, nodeText_string, marked_scalarText, ih, itemLine, newLine, indentWidth]

/-- The items of a sequence, the first of them apart. -/
theorem itemLines_cons (s : String) (items : List String) (rest : List Char) :
    (s :: items).flatMap itemLine ++ rest =
      '\n' :: (List.replicate 2 ' ' ++ '-' :: ' ' :: (scalarText false 2 s ++
        (items.flatMap itemLine ++ rest))) := by
  simp [itemLine]

/-- One item is read, and what follows depends on how the next line is indented. -/
theorem goes_sequenceEntries_item {s : String} {acc result : Option (List Value)} {line : Nat}
    (hstands : c.Stands 2 ('-' :: ' ' :: (scalarText false 2 s ++
      '\n' :: (List.replicate k ' ' ++ next)))) (hnext : Opens next) (hindent : k ≤ 2)
    (hline : line = c.line)
    (hthen : ∀ e : Cursor, e.Stands k next → line < e.line →
      ∃ d : Cursor, Goes (if (k : Int) < 2 then pure (some (.string s :: acc.getD []))
        else sequenceEntries (composeWith (composeWith compose)) 2 none fuel
          (some (.string s :: acc.getD []))) e result d ∧ d.Stands 0 rest ∧ line < d.line) :
    ∃ d : Cursor, Goes (sequenceEntries (composeWith (composeWith compose)) 2 none (fuel + 1) acc) c
      result d ∧ d.Stands 0 rest ∧ line < d.line := by
  have hrest : c.rest = '-' :: ' ' :: (scalarText false 2 s ++
      '\n' :: (List.replicate k ' ' ++ next)) := hstands.rest
  have hin : c.InLine := by
    have hcolumn := hstands.column
    unfold InLine
    omega
  have hend : c.atEnd = false := by
    rw [atEnd, hrest]
    rfl
  have hhyphen : (c.sees '-' && c.second?.any isSpacing) = true := by
    rw [sees, second?, hrest]
    rfl
  have hfirst : c.advance.rest = ' ' :: (scalarText false 2 s ++
      '\n' :: (List.replicate k ' ' ++ next)) :=
    rest_advance_of_rest hrest
  have hsecond : c.advance.advance.rest = scalarText false 2 s ++
      '\n' :: (List.replicate k ' ' ++ next) :=
    rest_advance_of_rest hfirst
  have hscalar := (atText_of_written (written_scalarText 2 s) hsecond).scalar
  have hseparation : c.advance.separation true = (0, c.advance.advance) :=
    separation_of_blank hfirst (hsecond ▸ hscalar.opens) true
  have htab : c.advance.advance.tab = none := by
    rw [(line_advance _).2.2.2, (line_advance _).2.2.2, hstands.tab]
  obtain ⟨node, d, hitem, hvalue, hstands', hlater⟩ :=
    goes_item compose hin.advance.advance htab hsecond hnext (by omega)
  have hsame : c.advance.advance.line = c.line := by rw [(line_advance _).1, (line_advance _).1]
  obtain ⟨e, hgoes, he, hline'⟩ := hthen _ hstands' (by rw [hline, ← hsame]; exact hlater)
  refine ⟨e, ?_, he, hline'⟩
  -- The next line is indented no deeper, so it does not belong to the item.
  have hplace : (decide ((d.separation true).2.line = c.advance.advance.line) ||
      decide ((2 : Int) < k)) = false := by
    simp only [Bool.or_eq_false_iff, decide_eq_false_iff_not]
    omega
  rw [sequenceEntries]
  refine .cursor_bind ?_
  simp only [hend, hstands.tab, hhyphen, Bool.false_eq_true, Bool.not_true, if_false]
  refine .moveTo_bind (.bind (.separation_eq hseparation) (.cursor_bind ?_))
  simp only [Nat.lt_irrefl, decide_false, Bool.false_and, Bool.false_eq_true, if_false]
  refine .bind hitem (.bind (.pure _ _) (.bind (.skipSeparation d) (.cursor_bind ?_)))
  simp only [hplace, Bool.false_and, Bool.false_eq_true, if_false, hvalue, hstands'.indent]
  exact hgoes

theorem goes_sequenceEntries {s : String} {items : List String} (compose : Compose)
    (acc : Option (List Value))
    (hstands : c.Stands 2 ('-' :: ' ' :: (scalarText false 2 s ++
      (items.flatMap itemLine ++ '\n' :: next)))) (hnext : Opens next)
    (hfuel : items.length < fuel) :
    ∃ d : Cursor, Goes (sequenceEntries (composeWith (composeWith compose)) 2 none fuel acc) c
        (some ((items.map .string).reverse ++ .string s :: acc.getD [])) d ∧
      d.Stands 0 next ∧ c.line < d.line := by
  induction items generalizing s c acc fuel with
  | nil =>
    obtain ⟨fuel, rfl⟩ := Nat.exists_eq_add_one.mpr (Nat.zero_lt_of_lt hfuel)
    exact goes_sequenceEntries_item (k := 0) hstands hnext (by decide) rfl
      fun e he hlater => ⟨e, .pure _ _, he, hlater⟩
  | cons s' items ih =>
    obtain ⟨fuel, rfl⟩ := Nat.exists_eq_add_one.mpr (Nat.zero_lt_of_lt hfuel)
    rw [itemLines_cons] at hstands
    refine goes_sequenceEntries_item (k := 2) hstands (opens_cons rfl (by decide)) (by decide) rfl
      fun e he hlater => ?_
    obtain ⟨d, hgoes, hd, hline⟩ :=
      ih (some (.string s :: acc.getD [])) he (Nat.lt_of_succ_lt_succ hfuel)
    refine ⟨d, ?_, hd, by omega⟩
    rw [if_neg (by decide)]
    simpa using hgoes

theorem goes_blockSequence {s : String} {items : List String} (compose : Compose)
    (hstands : c.Stands 2 ('-' :: ' ' :: (scalarText false 2 s ++
      (items.flatMap itemLine ++ '\n' :: next)))) (hnext : Opens next) :
    ∃ d : Cursor, Goes (blockSequence (composeWith (composeWith compose)) 2 none) c
        (some ((s :: items).map .string)) d ∧ d.Stands 0 next ∧ c.line < d.line := by
  have hlength : items.length < c.rest.length + 1 := by
    have hitems := length_le_flatMap itemLine_ne_nil items
    rw [hstands.rest]
    simp only [List.length_cons, List.length_append]
    omega
  obtain ⟨d, hentries, hd, hline⟩ := goes_sequenceEntries compose none hstands hnext hlength
  have hvalue : (some ((items.map Value.string).reverse ++
      .string s :: (none : Option (List Value)).getD [])).map List.reverse =
      some ((s :: items).map .string) := by simp
  refine ⟨d, ?_, hd, hline⟩
  rw [blockSequence]
  refine .cursor_bind ?_
  rw [hstands.tab]
  refine .bind (.anchor_none _ _) (.bind hentries ?_)
  rw [hvalue]
  exact .pure _ _

/-- Where a sequence begins, a node is this sequence. -/
theorem goes_nodeContent_sequence {values : List Value}
    (hsequence : Goes (blockSequence compose c.column none) c (some values) d) :
    Goes (nodeContent compose 0 .blockOut false (bare true true)) c
      { tag := none, name := none, found := some (some .sequence, .list values) } d := by
  have hblock : Goes (blockContent compose c.column (0 + 1) (bare true true)) c
      { tag := none, name := none, found := some (some .sequence, .list values) } d := by
    rw [blockContent]
    exact .bind hsequence (.pure _ _)
  rw [nodeContent, bare]
  simp only [Bool.true_and, Bool.true_or, if_true]
  rw [innerContent]
  exact .cursor_bind (.bind hblock (.pure _ _))

/-- A sequence of texts is read back as the value of a key. -/
theorem readsBack_list (s : String) (items : List String) :
    ReadsBack (composeWith (composeWith (composeWith compose)))
      (itemsText 1 false ((s :: items).map .string)) (.list ((s :: items).map .string)) := by
  intro c next hrest hnext hline htab
  rw [itemsText_strings, itemLines_cons] at hrest
  obtain ⟨d, hseparation, hstands, hlater⟩ :=
    separation_of_break hrest (opens_cons rfl (by decide)) true
  have hproperties : Goes (nodeProperties 0 true true) c (bare true true) d := by
    refine goes_nodeProperties_below hseparation (by rw [hstands.indent]; decide) ?_ ?_
    · rw [sees_of_rest hstands.rest]
      rfl
    · rw [sees_of_rest hstands.rest]
      rfl
  have hcolumn : d.column = 2 := by
    rw [column, hstands.column]
    omega
  obtain ⟨e, hsequence, he, hline'⟩ := goes_blockSequence compose hstands hnext
  rw [← hcolumn] at hsequence
  refine ⟨{ present := true, kind := some .sequence, value := .list ((s :: items).map .string) }, e,
    ?_, rfl, rfl, he.leads hnext (by omega)⟩
  rw [composeWith]
  refine .bind hproperties (.bind (goes_nodeContent_sequence hsequence) ?_)
  exact .bind (.anchor_none _ _) (.pure _ _)

end GoldenRun.Yaml
