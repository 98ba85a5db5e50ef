import GoldenRun.Proofs.Yaml.Quoted

/-!
# Plain scalars read back

A text that may stand as a plain scalar is read up to the end of its line, or up to the colon
behind it if it is a key.

* `followsPlain_spec`: what the characters of a plain scalar are like
* `plainLine_of_follows`: they are read up to where the scalar ends
* `goes_plainScalar_line`: a plain scalar at the end of a line
* `goes_plainScalar_key`: a plain scalar before a colon
-/

namespace GoldenRun.Yaml

open GoldenRun.Text Reading Cursor

variable {c : Cursor} {rest text white : List Char} {x : Char} {previous : Option Char}

theorem not_notPrintable_of_printable (h : isPrintable x = true) : isNotPrintable x = false := by
  simp only [isPrintable, Bool.or_eq_true, Bool.and_eq_true, decide_eq_true_eq,
    bne_iff_ne, ne_eq] at h
  simp only [isNotPrintable, Bool.or_eq_false_iff, Bool.and_eq_false_iff,
    decide_eq_false_iff_not]
  omega

theorem goes_checkPrintable (h : ∀ x ∈ text, isPrintable x = true) (d : Cursor) :
    Goes (checkPrintable d text) c () c := by
  have hnone : text.any isNotPrintable = false := by
    simpa using fun x hx => not_notPrintable_of_printable (h x hx)
  rw [checkPrintable, hnone]
  exact .pure () c

/-- What a character in a plain scalar is like: behind a colon there is no spacing, and before a
number sign neither. -/
theorem followsPlain_spec (h : followsPlain previous x = true) :
    isPrintable x = true ∧ (previous = some ':' → isSpacing x = false) ∧
      (x = '#' → previous.any isSpacing = false) := by
  have hsolid : ∀ y, isPrintable y = true → isWhite y = false → isSpacing y = false := by
    intro y hprintable hwhite
    rw [isSpacing, hwhite, (not_control_of_printable hprintable).2]
    rfl
  simp only [followsPlain, Bool.or_eq_true, Bool.and_eq_true, decide_eq_true_eq,
    Bool.not_eq_true', Bool.and_eq_false_iff, decide_eq_false_iff_not, bne_iff_ne, ne_eq] at h
  refine ⟨?_, ?_, ?_⟩
  · rcases h with (⟨⟨hprintable, -⟩, -⟩ | ⟨rfl, -⟩) | ⟨-, hprintable, -⟩
    · exact hprintable
    · decide
    · exact hprintable
  · rintro rfl
    rcases h with (⟨⟨hprintable, -⟩, hor⟩ | ⟨rfl, -⟩) | ⟨-, hprintable, hwhite⟩
    · rcases hor with hne | hsolid'
      · exact absurd rfl hne
      · rw [hprintable] at hsolid'
        exact hsolid x hprintable (by simpa using hsolid')
    · decide
    · exact hsolid x hprintable hwhite
  · rintro rfl
    rcases h with (⟨⟨-, hne⟩, -⟩ | ⟨-, hany⟩) | ⟨rfl, -⟩
    · exact absurd rfl hne
    · cases previous with
      | none => rfl
      | some y =>
        rw [Option.any_some, Bool.and_eq_true, Bool.not_eq_true'] at hany
        exact hsolid y hany.1 hany.2
    · decide

/-- All characters of a plain scalar are printable. -/
theorem printable_of_allFollowPlain (h : allFollowPlain previous text = true) :
    ∀ x ∈ text, isPrintable x = true := by
  induction text generalizing previous with
  | nil => simp
  | cons x text ih =>
    rw [allFollowPlain, Bool.and_eq_true] at h
    rintro y (_ | ⟨_, hy⟩)
    · exact (followsPlain_spec h.1).1
    · exact ih h.2 y hy

/-- Where a plain scalar that may be a key or stand at the end of a line has its end. -/
def EndsLine (rest : List Char) : Prop :=
  rest.head? = some '\n' ∨ rest.head? = some ':' ∧ rest[1]?.any isSpacing = true

theorem plainLine_of_ended (h : EndsLine c.rest) {fuel : Nat} {l : PlainLine} (hstop : l.stop = c) :
    plainLine false (fuel + 1) white l = l := by
  rw [plainLine]
  rcases h with hfeed | ⟨hcolon, hsecond⟩
  · have hpeek : c.peek? = some '\n' := hfeed
    have hbreak : isBreak '\n' = true := rfl
    simp only [hstop, hpeek, hbreak, Bool.or_true, if_true]
  · have hpeek : c.peek? = some ':' := hcolon
    have hends : c.endsPlain false = true := by
      rw [endsPlain, hpeek]
      simpa [second?] using hsecond
    simp only [hstop, hpeek, hends, Bool.true_or, if_true]

/-- Within a plain scalar nothing ends it. -/
theorem not_endsPlain (hclear : c.Clear) (hrest : c.rest = x :: rest)
    (hcolon : x = ':' → rest.head?.any isSpacing = false)
    (hsign : x = '#' → c.previous.any isSpacing = false) : c.endsPlain false = false := by
  have hpeek : c.peek? = some x := peek?_of_rest hrest
  have hsecond : c.second? = rest.head? := by
    rw [second?, hrest, List.head?_eq_getElem?]
    rfl
  unfold endsPlain
  rw [hpeek]
  split
  · next h => cases h
  · next h =>
    cases h
    simpa [hsecond] using hcolon rfl
  · next h =>
    cases h
    exact hsign rfl
  · simp [hclear.mark]

/-- One character of a plain scalar is read; white space waits for what follows it. -/
theorem plainLine_step {fuel : Nat} {l : PlainLine} (hrest : c.rest = x :: rest)
    (hprintable : isPrintable x = true) (hgoes : c.endsPlain false = false) (hstop : l.stop = c) :
    plainLine false (fuel + 1) white l =
      if isWhite x then plainLine false fuel (x :: white) { l with stop := c.advance }
      else plainLine false fuel [] ⟨x :: (white ++ l.reversed), c.advance, c.advance⟩ := by
  have hpeek : c.peek? = some x := peek?_of_rest hrest
  rw [plainLine]
  simp only [hstop, hpeek, hgoes, (not_control_of_printable hprintable).2, Bool.or_self,
    Bool.false_eq_true, if_false]

/-- The characters of a plain scalar are read up to where it ends. -/
theorem plainLine_of_follows {fuel : Nat} {l : PlainLine}
    (hfollow : allFollowPlain previous (x :: text) = true)
    (hsign : x = '#' → c.previous.any isSpacing = false)
    (hlast : (x :: text).getLast?.any endsPlainText = true)
    (hfuel : text.length + 1 < fuel) (hclear : c.Clear) (hrest : c.rest = x :: text ++ rest)
    (hend : EndsLine rest) (hstop : l.stop = c) :
    plainLine false fuel white l =
      ⟨(x :: text).reverse ++ (white ++ l.reversed), advanceBy (text.length + 1) c,
        advanceBy (text.length + 1) c⟩ := by
  induction text generalizing x c previous fuel white l with
  | nil =>
    obtain ⟨fuel, rfl⟩ : ∃ n, fuel = n + 1 + 1 := ⟨fuel - 2, by simp at hfuel; omega⟩
    have hrest : c.rest = x :: rest := hrest
    rw [allFollowPlain, Bool.and_eq_true] at hfollow
    obtain ⟨hprintable, -, -⟩ := followsPlain_spec hfollow.1
    have hends : isWhite x = false ∧ x ≠ ':' := by simpa [endsPlainText] using hlast
    have hgoes : c.endsPlain false = false :=
      not_endsPlain hclear hrest (fun h => absurd h hends.2) hsign
    have hbehind : c.advance.rest = rest := rest_advance_of_rest hrest
    rw [plainLine_step hrest hprintable hgoes hstop, hends.1, if_neg (by decide),
      plainLine_of_ended (hbehind.symm ▸ hend) rfl]
    rfl
  | cons y text ih =>
    obtain ⟨fuel, rfl⟩ := Nat.exists_eq_add_one.mpr (Nat.zero_lt_of_lt hfuel)
    have hrest : c.rest = x :: (y :: text ++ rest) := hrest
    have hbehind : c.advance.rest = y :: text ++ rest := rest_advance_of_rest hrest
    have hprevious : c.advance.previous = some x := by rw [advance_of_rest hrest]
    rw [allFollowPlain, Bool.and_eq_true] at hfollow
    obtain ⟨hprintable, -, -⟩ := followsPlain_spec hfollow.1
    have hnext := hfollow.2
    rw [allFollowPlain, Bool.and_eq_true] at hnext
    obtain ⟨-, hspacing, hsign'⟩ := followsPlain_spec hnext.1
    have hcolon : x = ':' → (y :: text ++ rest).head?.any isSpacing = false :=
      fun h => hspacing (congrArg some h)
    have hgoes : c.endsPlain false = false := not_endsPlain hclear hrest hcolon hsign
    have hlast' : (y :: text).getLast?.any endsPlainText = true := by
      rwa [List.getLast?_cons_cons] at hlast
    have hread : ∀ white l, l.stop = c.advance → plainLine false fuel white l =
        ⟨(y :: text).reverse ++ (white ++ l.reversed), advanceBy (text.length + 1) c.advance,
          advanceBy (text.length + 1) c.advance⟩ := fun white l =>
      ih hfollow.2 (hprevious ▸ hsign') hlast' (Nat.lt_of_succ_lt_succ hfuel)
        (hclear.advance hrest).clear hbehind
    rw [plainLine_step hrest hprintable hgoes hstop]
    split
    · simp [hread, advanceBy]
    · simp [hread, advanceBy]

/-- Whether a plain scalar may begin with a text: with a character that begins one, or with a
hyphen behind which no spacing stands. -/
def StartsPlain (text : List Char) : Prop :=
  text.head?.any beginsPlain = true ∨
    text.head? = some '-' ∧ text[1]?.any (fun x => !isSpacing x) = true

theorem not_refusesPlain (h : StartsPlain text) (hrest : c.rest = text ++ rest) :
    c.refusesPlain false = false := by
  unfold refusesPlain peek?
  rcases h with hbegins | ⟨hhead, hsecond⟩
  · obtain ⟨x, text, rfl⟩ : ∃ x more, text = x :: more := by
      cases text with
      | nil => cases hbegins
      | cons x more => exact ⟨x, more, rfl⟩
    rw [List.head?_cons, Option.any_some, beginsPlain, Bool.and_eq_true, Bool.and_eq_true,
      Bool.not_eq_true', Bool.not_eq_true'] at hbegins
    obtain ⟨⟨hprintable, hwhite⟩, hmark⟩ := hbegins
    rw [hrest, List.cons_append, List.head?_cons]
    simp only [isSpacing, hwhite, (not_control_of_printable hprintable).2]
    simp at hmark
    simp [isFlowMark, hmark]
  · obtain ⟨y, more, rfl, hy⟩ : ∃ y more, text = '-' :: y :: more ∧ isSpacing y = false := by
      rcases text with _ | ⟨x, _ | ⟨y, more⟩⟩
      · cases hhead
      · cases hsecond
      · rw [List.head?_cons] at hhead
        exact ⟨y, more, by rw [Option.some.inj hhead], by simpa using hsecond⟩
    rw [hrest]
    simp [second?, hrest, hy]
    decide

/-- A text that may stand on a line as a plain scalar. -/
structure IsPlain (text : List Char) : Prop where
  /-- It begins as one. -/
  starts : StartsPlain text
  /-- It ends as one. -/
  ends : text.getLast?.any endsPlainText = true
  /-- Its characters may follow one another. -/
  follows : allFollowPlain none text = true

theorem IsPlain.ne_nil (h : IsPlain text) : text ≠ [] := by
  rintro rfl
  cases h.ends

/-- No plain scalar begins with a number sign. -/
theorem StartsPlain.not_sign (h : StartsPlain (x :: text)) : x ≠ '#' := by
  rintro rfl
  rcases h with hbegins | ⟨hhead, -⟩
  · exact absurd (Option.any_some.symm.trans hbegins) (by decide)
  · exact absurd (Option.some.inj hhead) (by decide)

/-- A plain scalar is read up to where it ends on its line. -/
theorem IsPlain.plainLine (h : IsPlain text) (hclear : c.Clear) (hrest : c.rest = text ++ rest)
    (hend : EndsLine rest) :
    plainLine false (c.rest.length + 1) [] ⟨[], c, c⟩ =
      ⟨text.reverse, advanceBy text.length c, advanceBy text.length c⟩ := by
  cases text with
  | nil => exact absurd rfl h.ne_nil
  | cons x text =>
    have hfuel : text.length + 1 < c.rest.length + 1 := by
      have hne : rest ≠ [] := by
        rintro rfl
        rcases hend with h | ⟨h, -⟩ <;> cases h
      have := List.length_pos_iff.mpr hne
      rw [hrest, List.length_append, List.length_cons]
      omega
    rw [plainLine_of_follows h.follows (fun hx => absurd hx h.starts.not_sign) h.ends hfuel hclear
      hrest hend rfl, List.append_nil, List.append_nil]
    rfl

theorem IsPlain.not_endsPlain (h : IsPlain text) (hclear : c.Clear)
    (hrest : c.rest = text ++ rest) : c.endsPlain false = false := by
  cases text with
  | nil => exact absurd rfl h.ne_nil
  | cons x text =>
    have hcolon : x = ':' → (text ++ rest).head?.any isSpacing = false := by
      rintro rfl
      rcases h.starts with hbegins | ⟨hhead, -⟩
      · exact absurd (Option.any_some.symm.trans hbegins) (by decide)
      · exact absurd (Option.some.inj hhead) (by decide)
    exact GoldenRun.Yaml.not_endsPlain hclear hrest hcolon
      fun hx => absurd hx h.starts.not_sign

variable {next : List Char} {k : Nat} {indent : Int}

/-- A plain scalar at the end of a line; the next line is indented less. -/
theorem goes_plainScalar_line (h : IsPlain text) (hclear : c.Clear) (htab : c.tab = none)
    (hrest : c.rest = text ++ '\n' :: (List.replicate k ' ' ++ next)) (hnext : Opens next)
    (hindent : (k : Int) < indent) :
    Goes (plainScalar false indent) c (some text) (advanceBy text.length c) := by
  have hend : EndsLine ('\n' :: (List.replicate k ' ' ++ next)) := .inl rfl
  have hread := h.plainLine hclear hrest hend
  have hbehind : (advanceBy text.length c).rest = '\n' :: (List.replicate k ' ' ++ next) :=
    rest_advanceBy_of_rest hrest
  obtain ⟨e, hseparation, hstands, -⟩ := separation_of_break hbehind hnext false
  have hless : ¬ indent ≤ (e.indent : Int) := by
    rw [hstands.indent]
    omega
  have hsame : ({ advanceBy text.length c with tab := e.tab } : Cursor) =
      advanceBy text.length c := by
    rw [hstands.tab, ← htab, ← (line_advanceBy text.length c).2.2.2]
  have hbreak : (advanceBy text.length c).atBreak = true := by
    rw [atBreak, hbehind]
    rfl
  have hlines : Goes (plainLines false indent (c.rest.length + 1) []) c text
      (advanceBy text.length c) := by
    rw [plainLines]
    refine .cursor_bind ?_
    simp only [hread, hbreak, if_true, hseparation, hless, if_false, List.reverse_reverse]
    refine .bind (goes_checkPrintable (printable_of_allFollowPlain h.follows) _) ?_
    rw [hsame]
    exact .moveTo_bind (.pure _ _)
  rw [plainScalar]
  refine .cursor_bind ?_
  rw [not_refusesPlain h.starts hrest, h.not_endsPlain hclear hrest]
  exact .bind hlines (.pure _ _)

/-- A plain scalar before a colon. -/
theorem goes_plainScalar_key (indent : Int) (h : IsPlain text) (hclear : c.Clear)
    (hrest : c.rest = text ++ ':' :: rest) (hspacing : rest.head?.any isSpacing = true) :
    Goes (plainScalar false indent) c (some text) (advanceBy text.length c) := by
  have hend : EndsLine (':' :: rest) := .inr ⟨rfl, by simpa [List.head?_eq_getElem?] using hspacing⟩
  have hread := h.plainLine hclear hrest hend
  have hbehind : (advanceBy text.length c).rest = ':' :: rest :=
    rest_advanceBy_of_rest hrest
  have hbreak : (advanceBy text.length c).atBreak = false := by
    rw [atBreak, hbehind]
    rfl
  have hlines : Goes (plainLines false indent (c.rest.length + 1) []) c text
      (advanceBy text.length c) := by
    rw [plainLines]
    refine .cursor_bind ?_
    simp only [hread, hbreak, Bool.false_eq_true, if_false, List.reverse_reverse]
    refine .bind (goes_checkPrintable (printable_of_allFollowPlain h.follows) _) ?_
    exact .moveTo_bind (.pure _ _)
  rw [plainScalar]
  refine .cursor_bind ?_
  rw [not_refusesPlain h.starts hrest, h.not_endsPlain hclear hrest]
  exact .bind hlines (.pure _ _)

end GoldenRun.Yaml
