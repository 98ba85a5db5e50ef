import GoldenRun.Proofs.Yaml.Scalar

/-!
# Nodes are read as they were written

A value stands behind the colon of its key, and from there on it is read until the next line begins.

* `ReadsBack`: what is read as the value of a key is as it was written
* `readsBack_string`: so it is with a text, in whichever way it was written
* `readsBack_number`: and with a whole number that is not negative
-/

namespace GoldenRun.Yaml

open GoldenRun.Number GoldenRun.Text Reading Cursor

variable {text written rest next : List Char} {c d : Cursor} {x : Char} {k fuel : Nat}
  {parent indent : Int} {context : Context} {compose : Compose} {block seek compact : Bool}
  {content : Content}

/-! ## Where a scalar begins -/

/-- Whether a node can begin with a character that is a scalar without tag and anchor. -/
def leadsScalar (x : Char) : Bool := !isSpacing x && !(['#', '!', '&', '[', '{'].contains x)

/-- A scalar begins here. -/
def Cursor.AtScalar (c : Cursor) : Prop := ∃ x rest, c.rest = x :: rest ∧ leadsScalar x = true

theorem Cursor.AtScalar.opens (h : c.AtScalar) : Opens c.rest := by
  obtain ⟨x, rest, hrest, hx⟩ := h
  rw [leadsScalar, Bool.and_eq_true, Bool.not_eq_true'] at hx
  intro y hy
  rw [hrest, List.head?_cons, Option.mem_some_iff] at hy
  subst hy
  refine ⟨hx.1, ?_⟩
  rintro rfl
  exact absurd hx.2 (by decide)

theorem Cursor.AtScalar.not_sees (h : c.AtScalar) {y : Char} (hy : y ∈ ['#', '!', '&', '[', '{']) :
    c.sees y = false := by
  obtain ⟨x, rest, hrest, hx⟩ := h
  rw [leadsScalar, Bool.and_eq_true, Bool.not_eq_true', Bool.not_eq_true'] at hx
  rw [sees_of_rest hrest, decide_eq_false_iff_not]
  rintro rfl
  have hcontains : ['#', '!', '&', '[', '{'].contains x = true := by simpa using hy
  rw [hcontains] at hx
  cases hx.2

/-! ## Properties -/

/-- The properties of a node before which none are written. -/
def bare (newLine block : Bool) : Properties := { newLine, collections := block, level := .gt }

theorem goes_tagProperty_none (h : c.sees '!' = false) (tag : Option String) :
    Goes (tagProperty tag) c none c := by
  rw [tagProperty]
  refine .cursor_bind ?_
  rw [h]
  exact .pure _ _

theorem goes_anchorProperty_none (h : c.sees '&' = false) (name : Option String) :
    Goes (anchorProperty name) c none c := by
  have hname : Goes (markedName '&' .namelessAnchor) c none c := by
    rw [markedName]
    refine .cursor_bind ?_
    rw [h]
    exact .pure _ _
  rw [anchorProperty]
  refine .cursor_bind ?_
  rw [h]
  exact hname

theorem goes_properties_none (htag : c.sees '!' = false) (hname : c.sees '&' = false)
    (p : Properties) : Goes (properties parent block (fuel + 1) p) c p c := by
  rw [properties]
  refine .get_bind fun s => ?_
  simp only [htag, hname, Bool.false_and, Bool.or_self, Bool.and_false, Bool.false_eq_true,
    if_false]
  refine .bind (goes_tagProperty_none htag p.tag) ?_
  simp only [Option.isSome_none, Bool.false_eq_true, if_false]
  exact .bind (goes_anchorProperty_none hname p.name) (.pure _ _)

/-- A node that begins where it is read. -/
theorem goes_nodeProperties_here (htag : c.sees '!' = false) (hname : c.sees '&' = false) :
    Goes (nodeProperties parent block false) c (bare false block) c := by
  rw [nodeProperties]
  refine .bind (.pure 0 c) (.cursor_bind ?_)
  exact goes_properties_none htag hname _

/-- A node that begins on the same line. -/
theorem goes_nodeProperties_same (hseparation : c.separation true = (0, d))
    (htag : d.sees '!' = false) (hname : d.sees '&' = false) :
    Goes (nodeProperties parent block true) c (bare false block) d := by
  rw [nodeProperties]
  refine .bind (.separation_eq hseparation) (.cursor_bind ?_)
  exact goes_properties_none htag hname _

/-- A node that begins on the next line, indented more than its parent. -/
theorem goes_nodeProperties_below (hseparation : c.separation true = (1, d))
    (hindent : parent < d.indent) (htag : d.sees '!' = false) (hname : d.sees '&' = false) :
    Goes (nodeProperties parent block true) c (bare true block) d := by
  have hlevel : compare (d.indent : Int) parent = .gt := Int.compare_eq_gt.mpr hindent
  rw [nodeProperties]
  refine .bind (.separation_eq hseparation) (.cursor_bind ?_)
  simp only [Nat.zero_lt_one, if_true, hlevel]
  exact goes_properties_none htag hname _

/-! ## Content -/

theorem goes_flowCollection_none (hlist : c.sees '[' = false) (hmap : c.sees '{' = false)
    (name : Option String) : Goes (flowCollection compose indent name) c none c := by
  rw [flowCollection]
  refine .cursor_bind ?_
  rw [hlist, hmap]
  exact .pure _ _

/-- Where a scalar begins, a scalar is read. -/
theorem goes_flowContent (h : c.AtScalar)
    (hread : Goes (scalarContent context indent none none) c content d)
    (hname : content.name = none) (collections : Bool) :
    Goes (flowContent compose context indent collections none none none) c content d := by
  rw [flowContent]
  refine .bind (goes_flowCollection_none (h.not_sees (by decide)) (h.not_sees (by decide)) none) ?_
  refine .cursor_bind ?_
  refine .bind (.pure none c) ?_
  refine .bind hread ?_
  rw [hname]
  exact .bind (.anchor_none _ _) (.pure _ _)

/-- What is indented more than its parent and cannot be a block collection. -/
theorem goes_nodeContent_scalar (compose : Compose) (block compact : Bool) (h : c.AtScalar)
    (hread : Goes (scalarContent context (if context.isBlock then parent + 1 else parent) none none)
      c content d) (hname : content.name = none) (hcompact : (block && compact) = false) :
    Goes (nodeContent compose parent context compact (bare false block)) c content d := by
  have hcollections : (block && (false || compact)) = false := by rwa [Bool.false_or]
  rw [nodeContent]
  simp only [bare, hcollections, if_true]
  rw [innerContent]
  refine .cursor_bind ?_
  refine .bind (.pure _ _) ?_
  exact goes_flowContent h hread hname false

/-! ## Meaning -/

theorem eq_of_plainValue_eq_string {s t : String} (h : plainValue s = .string t) : t = s := by
  unfold plainValue at h
  split at h
  · cases h
  · split at h
    · cases h
    · cases h
    · cases h
    · cases h
    · exact (Value.string.inj h).symm

/-- A plain scalar that is not ambiguous means its own text. -/
theorem plainValue_of_clear {s : String} (h : isAmbiguous s = false) :
    plainValue s = .string s ∧ s ≠ mergeWord := by
  rw [isAmbiguous, Bool.or_eq_false_iff, Bool.not_eq_false', decide_eq_false_iff_not] at h
  obtain ⟨hmerge, hstring⟩ := h
  refine ⟨?_, hmerge⟩
  cases hvalue : plainValue s with
  | string t => rw [eq_of_plainValue_eq_string hvalue]
  | _ =>
    rw [hvalue] at hstring
    cases hstring

/-- A node without anchor is what its content means. -/
theorem goes_node {tag : Option String} {meaning : Meaning}
    (h : Meaning.ofNode tag (some .scalar) (.string (String.ofList text)) = .ok meaning) :
    Goes (scalarOf tag text).node c
      { present := true, tag := meaning.tag, kind := some .scalar, value := meaning.value } c := by
  rw [Content.node, scalarOf]
  simp only [Option.getD_some, h, Option.isSome_some, Bool.or_true]
  split
  · exact .bind (.anchor_none _ _) (.pure _ _)
  · exact .pure _ _

/-- A text between quotes or in a block means itself. -/
theorem goes_node_text : Goes (scalarOf none text).node c
    { present := true, kind := some .scalar, value := .string (String.ofList text) } c := by
  have hmeaning : Meaning.ofNode none (some .scalar) (.string (String.ofList text)) =
      .ok { value := .string (String.ofList text) } := rfl
  exact goes_node hmeaning

/-- What a plain scalar means by its form. -/
theorem goes_node_plain {value : Value} (h : plainValue (String.ofList text) = value)
    (hmerge : String.ofList text ≠ mergeWord) : Goes (scalarOf (some plainTag) text).node c
      { present := true, tag := some plainTag, kind := some .scalar, value } c := by
  have hplain : plainTag ≠ mergeTag := by decide
  obtain ⟨meaning, hmeaning, htag, hvalue⟩ : ∃ meaning : Meaning,
      Meaning.ofNode (some plainTag) (some .scalar) (.string (String.ofList text)) = .ok meaning ∧
        meaning.tag = some plainTag ∧ meaning.value = value := by
    refine ⟨_, rfl, ?_, h⟩
    rw [if_neg hmerge]
  have hgoes := goes_node (c := c) hmeaning
  rwa [htag, hvalue] at hgoes

/-! ## Scalars as values -/

theorem leadsScalar_of_leadsText (h : leadsText x = true) : leadsScalar x = true := by
  rw [leadsText, Bool.and_eq_true, Bool.not_eq_true', Bool.not_eq_true'] at h
  obtain ⟨hspacing, hmark⟩ := h
  simp at hmark
  simp [leadsScalar, hspacing, hmark]

/-- A node that is a scalar and cannot be a block collection. -/
theorem goes_compose_scalar {e : Cursor} {node : Node} {tag : Option String}
    (hproperties : Goes (nodeProperties parent context.isBlock seek) c
      (bare false context.isBlock) e) (hscalar : e.AtScalar)
    (hread : Goes (scalarContent context (if context.isBlock then parent + 1 else parent) none none)
      e (scalarOf tag text) d) (hcompact : (context.isBlock && compact) = false)
    (hnode : Goes (scalarOf tag text).node d node d) :
    Goes (composeWith compose parent context seek compact) c node d := by
  rw [composeWith]
  exact .bind hproperties (.bind (goes_nodeContent_scalar _ _ _ hscalar hread rfl hcompact) hnode)

/-- What is read as the value of a key is as it was written. -/
def ReadsBack (compose : Compose) (written : List Char) (value : Value) : Prop :=
  ∀ (c : Cursor) (next : List Char), c.rest = written ++ '\n' :: next → Opens next → c.InLine →
    c.tab = none → ∃ (node : Node) (d : Cursor), Goes (compose 0 .blockOut true false) c node d ∧
      node.present = true ∧ node.value = value ∧ d.Leads c.line 0 next

/-- The meaning of a text that was read. -/
theorem goes_node_of_text {tag : Option String} {s : String}
    (h : tag = none ∨ tag = some plainTag ∧ isAmbiguous s = false) :
    ∃ node : Node, Goes (scalarOf tag s.toList).node c node c ∧ node.present = true ∧
      node.kind = some .scalar ∧ node.value = .string s := by
  rcases h with rfl | ⟨rfl, hclear⟩
  · exact ⟨_, goes_node_text, rfl, rfl, by rw [String.ofList_toList]⟩
  · obtain ⟨hvalue, hmerge⟩ := plainValue_of_clear hclear
    rw [← String.ofList_toList (s := s)] at hvalue hmerge
    exact ⟨_, goes_node_plain hvalue hmerge, rfl, rfl, by rw [String.ofList_toList]⟩

/-- A scalar behind a colon and a blank is read as the value of a key. -/
theorem readsBack_scalar {written : List Char} {value : Value}
    (hleads : ∃ x more, written = x :: more ∧ leadsScalar x = true)
    (hread : ∀ (c : Cursor) (next : List Char),
      c.rest = written ++ '\n' :: (List.replicate 0 ' ' ++ next) → Opens next → c.InLine →
        c.tab = none → ∃ (tag : Option String) (text : List Char) (node : Node) (d : Cursor),
          Goes (scalarContent .blockOut (0 + 1) none none) c (scalarOf tag text) d ∧
            d.Leads c.line 0 next ∧ Goes (scalarOf tag text).node d node d ∧
            node.present = true ∧ node.value = value) :
    ReadsBack (composeWith compose) (' ' :: written) value := by
  intro c next hrest hnext hline htab
  obtain ⟨x, more, hcons, hx⟩ := hleads
  have hrest : c.rest = ' ' :: (written ++ '\n' :: (List.replicate 0 ' ' ++ next)) := hrest
  have hbehind := rest_advance_of_rest hrest
  have hscalar : c.advance.AtScalar := ⟨x, _, by rw [hbehind, hcons, List.cons_append], hx⟩
  have hseparation : c.separation true = (0, c.advance) :=
    separation_of_blank hrest (hbehind ▸ hscalar.opens) true
  have htab' : c.advance.tab = none := (line_advance c).2.2.2.trans htab
  obtain ⟨tag, text, node, d, hcontent, hlater, hnode, hpresent, hvalue⟩ :=
    hread c.advance next hbehind hnext hline.advance htab'
  rw [(line_advance c).1] at hlater
  refine ⟨node, d, ?_, hpresent, hvalue, hlater⟩
  exact goes_compose_scalar (goes_nodeProperties_same hseparation (hscalar.not_sees (by decide))
    (hscalar.not_sees (by decide))) hscalar hcontent rfl hnode

theorem readsBack_string (s : String) :
    ReadsBack (composeWith compose) (' ' :: scalarText false 1 s) (.string s) := by
  obtain ⟨x, more, hcons, hx⟩ := leadsText_of_written (written_scalarText 1 s)
  refine readsBack_scalar ⟨x, more, hcons, leadsScalar_of_leadsText hx⟩ ?_
  intro c next hrest hnext hline htab
  have hcolumns : (0 + 1 : Int) + 1 = (indentWidth * max 1 1 : Nat) := rfl
  have hindent : ((0 : Nat) : Int) < 0 + 1 := by decide
  obtain ⟨tag, d, hread, hleads, htag⟩ := goes_scalarContent_text .blockOut rfl 1 s hcolumns
    hline htab hrest hnext hindent
  obtain ⟨node, hnode, hpresent, -, hvalue⟩ := goes_node_of_text (c := d) htag
  exact ⟨tag, _, node, d, hread, hleads, hnode, hpresent, hvalue⟩

/-! ## Numbers as values -/

/-- The characters of a number may follow one another in a plain scalar, and end it. -/
theorem followsPlain_of_number (h : x.isDigit = true ∨ x ∈ ['.', 'e', '+', '-']) :
    (∀ previous, followsPlain previous x = true) ∧ endsPlainText x = true := by
  have hx : isPrintable x = true ∧ isWhite x = false ∧ x ≠ '#' ∧ x ≠ ':' := by
    rcases h with hdigit | hmark
    · have hnot : ∀ y, y.isDigit = false → x ≠ y := by
        rintro y hy rfl
        rw [hdigit] at hy
        cases hy
      refine ⟨printable_of_digit hdigit, ?_, hnot _ (by decide), hnot _ (by decide)⟩
      simp [isWhite, hnot ' ' (by decide), hnot '\t' (by decide)]
    · have hall : ∀ y ∈ ['.', 'e', '+', '-'],
          isPrintable y = true ∧ isWhite y = false ∧ y ≠ '#' ∧ y ≠ ':' :=
        List.all_iff_forall_prop.mp (by decide)
      exact hall x hmark
  obtain ⟨hprintable, hwhite, hsign, hcolon⟩ := hx
  exact ⟨fun previous => by simp [followsPlain, hprintable, hwhite, hsign],
    by simp [endsPlainText, hwhite, hcolon]⟩

theorem beginsPlain_of_digit (h : x.isDigit = true) : beginsPlain x = true := by
  have hmark : "-?:,[]\x7b\x7d#&*!|=>'\"%@\x60".toList.contains x = false := by
    have hall : ∀ y ∈ "-?:,[]\x7b\x7d#&*!|=>'\"%@\x60".toList, y.isDigit = false :=
      List.all_iff_forall_prop.mp (by decide)
    rw [List.contains_eq_mem, decide_eq_false_iff_not]
    intro hmem
    rw [hall x hmem] at h
    cases h
  have hwhite : isWhite x = false := by
    have hends := (followsPlain_of_number (.inl h)).2
    rw [endsPlainText, Bool.and_eq_true, Bool.not_eq_true'] at hends
    exact hends.1
  rw [beginsPlain, printable_of_digit h, hwhite]
  simpa using hmark

/-- A text of characters of a number may stand as a plain scalar, if it begins as one. -/
theorem isPlain_of_number (hstarts : StartsPlain text)
    (h : ∀ x ∈ text, x.isDigit = true ∨ x ∈ ['.', 'e', '+', '-']) : IsPlain text := by
  have hfollows : ∀ (text : List Char) (previous : Option Char),
      (∀ x ∈ text, x.isDigit = true ∨ x ∈ ['.', 'e', '+', '-']) →
        allFollowPlain previous text = true := by
    intro text
    induction text with
    | nil => exact fun _ _ => rfl
    | cons x text ih =>
      intro previous h
      obtain ⟨hx, htext⟩ := List.forall_mem_cons.mp h
      rw [allFollowPlain, (followsPlain_of_number hx).1, ih _ htext]
      rfl
  refine ⟨hstarts, ?_, hfollows text none h⟩
  have hne : text ≠ [] := by
    rintro rfl
    rcases hstarts with h | ⟨h, -⟩ <;> cases h
  rw [List.getLast?_eq_some_getLast hne, Option.any_some]
  exact (followsPlain_of_number (h _ (List.getLast_mem hne))).2

/-- The characters of a whole number, and how its text begins. -/
theorem numberText_spec {x : Binary64} (hwhole : x.isWhole = true) (hsign : x.isNegative = false) :
    StartsPlain (numberText x) ∧
      ∀ y ∈ numberText x, y.isDigit = true ∨ y ∈ ['.', 'e', '+', '-'] := by
  rcases numberText_of_whole hwhole hsign with ⟨s, rfl⟩ | ⟨d, -, hlow, -, -, htext⟩
  · cases s with
    | false =>
      rw [numberText_zero]
      exact ⟨.inl (by decide), List.all_iff_forall_prop.mp (by decide)⟩
    | true =>
      rw [numberText_negativeZero]
      exact ⟨.inr (by decide), List.all_iff_forall_prop.mp (by decide)⟩
  · obtain ⟨hall, hfirst⟩ := mem_text hlow
    rw [htext]
    refine ⟨.inl ?_, fun x hx => (hall x hx).imp id fun hmem => ?_⟩
    · cases hcons : d.text.toList with
      | nil =>
        rw [hcons] at hfirst
        cases hfirst
      | cons y more =>
        rw [hcons] at hfirst
        exact beginsPlain_of_digit hfirst
    · exact List.mem_append_left ['-'] hmem

/-- A plain scalar begins as a scalar. -/
theorem StartsPlain.leadsScalar (h : StartsPlain (x :: text)) : leadsScalar x = true := by
  rcases h with hbegins | ⟨hhead, -⟩
  · rw [List.head?_cons, Option.any_some, beginsPlain, Bool.and_eq_true, Bool.and_eq_true,
      Bool.not_eq_true', Bool.not_eq_true'] at hbegins
    obtain ⟨⟨hprintable, hwhite⟩, hmark⟩ := hbegins
    simp at hmark
    simp [Yaml.leadsScalar, isSpacing, hwhite, (not_control_of_printable hprintable).2, hmark]
  · rw [Option.some.inj hhead]
    decide

/-- A plain scalar in the place of a value. -/
theorem readsBack_plain {value : Value} (h : IsPlain text)
    (hvalue : plainValue (String.ofList text) = value) (hmerge : String.ofList text ≠ mergeWord) :
    ReadsBack (composeWith compose) (' ' :: text) value := by
  obtain ⟨x, more, rfl⟩ := List.exists_cons_of_ne_nil h.ne_nil
  refine readsBack_scalar ⟨x, more, rfl, h.starts.leadsScalar⟩ ?_
  intro c next hrest hnext hline htab
  have hindent : ((0 : Nat) : Int) < 0 + 1 := by decide
  have hread := goes_scalarContent_plain .blockOut (by decide) h hrest
    (goes_plainScalar_line h hline.clear htab hrest hnext hindent)
  have hleads := leads_of_feed (rest_advanceBy_of_rest hrest) hnext
  rw [(line_advanceBy _ _).1] at hleads
  exact ⟨_, _, _, _, hread, hleads, goes_node_plain hvalue hmerge, rfl, rfl⟩

theorem readsBack_number {x : Binary64} (hwhole : x.isWhole = true) (hsign : x.isNegative = false) :
    ReadsBack (composeWith compose) (' ' :: numberText x) (.number x) := by
  obtain ⟨hstarts, hall⟩ := numberText_spec hwhole hsign
  have hmerge : String.ofList (numberText x) ≠ mergeWord := by
    intro h
    have hmem : '<' ∈ numberText x := by
      rw [← String.toList_ofList (l := numberText x), h]
      decide
    exact absurd (hall '<' hmem) (by decide)
  exact readsBack_plain (isPlain_of_number hstarts hall) (plainValue_numberText hwhole hsign) hmerge

end GoldenRun.Yaml
