import GoldenRun.Proofs.Yaml.Mapping
import GoldenRun.Yaml.Document

/-!
# A document is read as it was written

* `not_mem_scalarText`: no text is written with the character that no document holds
* `Writable`: the values of the mappings that are written here
* `load_dump`: a mapping from keys to texts, whole numbers and sequences of texts is read as it was
  written
-/

namespace GoldenRun.Yaml

open GoldenRun.Number GoldenRun.Text Reading Cursor

variable {text written rest next : List Char} {c : Cursor} {compose : Compose}
  {entries : Entries} {name : String}

/-! ## The character that no document holds -/

theorem not_mem_of_printable (h : ∀ x ∈ text, isPrintable x = true) : '\x00' ∉ text :=
  fun hmem => absurd (h _ hmem) (by decide)

theorem not_mem_escapeChar (x : Char) : '\x00' ∉ escapeChar x := by
  have hletter : simpleEscape? '\x00' = none := by decide
  have hnumber : escapeDigits? '\x00' = none := by decide
  have hdigit : digitValue? '\x00' = none := by decide
  cases escapes x with
  | plain htext _ _ hprintable =>
    rw [htext, List.mem_singleton]
    rintro rfl
    exact absurd hprintable (by decide)
  | letter y htext _ hmeaning =>
    rw [htext]
    simp only [List.mem_cons, List.not_mem_nil, or_false, not_or]
    refine ⟨by decide, ?_⟩
    rintro rfl
    rw [hletter] at hmeaning
    cases hmeaning
  | number y digits values htext _ _ hcount hdigits _ =>
    rw [htext]
    simp only [List.mem_cons, not_or]
    refine ⟨by decide, ?_, fun hmem => ?_⟩
    · rintro rfl
      rw [hnumber] at hcount
      cases hcount
    · have hvalue : digitValue? '\x00' ∈ values.map some := hdigits ▸ List.mem_map_of_mem hmem
      rw [hdigit] at hvalue
      simp at hvalue

theorem not_mem_of_inline (h : Inline text written) : '\x00' ∉ written := by
  cases h with
  | plain h _ _ => exact not_mem_of_printable (printable_of_allFollowPlain h.follows)
  | single hprintable =>
    have htext := not_mem_of_printable hprintable
    simp only [singleText, List.mem_cons, List.mem_append, List.mem_flatMap, List.not_mem_nil]
    rintro (h | ⟨x, hx, h⟩ | h)
    · exact absurd h (by decide)
    · split at h
      · exact absurd h (by decide)
      · exact htext (List.mem_singleton.mp h ▸ hx)
    · exact absurd h (by decide)
  | double =>
    simp only [doubleText, List.mem_cons, List.mem_append, List.mem_flatMap, List.not_mem_nil]
    rintro (h | ⟨x, -, h⟩ | h)
    · exact absurd h (by decide)
    · exact not_mem_escapeChar x h
    · exact absurd h (by decide)

theorem not_mem_blockHeaderText (text : List Char) : '\x00' ∉ blockHeaderText text := by
  rw [blockHeaderText_eq]
  cases needsIndicator text <;> cases chompingOf text <;> decide

theorem not_mem_of_block {columns : Nat} (h : Block columns text written) : '\x00' ∉ written := by
  obtain ⟨fold, lines, hlines, -, hprintable⟩ := h
  have hline := hlines.printable hprintable
  rw [blockText, List.mem_cons, List.mem_append]
  rintro (h | h | h)
  · revert h
    cases fold <;> decide
  · exact not_mem_blockHeaderText text h
  · rcases mem_join h with h | ⟨piece, hpiece, h⟩
    · exact absurd h (by decide)
    · obtain ⟨line, hmem, rfl⟩ := List.mem_map.mp hpiece
      unfold indentLine at h
      split at h
      · cases h
      · rcases List.mem_append.mp h with h | h
        · exact absurd (List.mem_replicate.mp h).2 (by decide)
        · exact not_mem_of_printable (hline line hmem) h

theorem not_mem_scalarText (level : Nat) (s : String) : '\x00' ∉ scalarText false level s :=
  (written_scalarText level s).elim not_mem_of_inline not_mem_of_block

/-! ## Values -/

/-- A value of the mappings that are written here. -/
inductive Writable : Value → Prop where
  /-- A text. -/
  | text (s : String) : Writable (.string s)
  /-- A whole number that is not negative. -/
  | number (x : Binary64) (whole : x.isWhole = true) (sign : x.isNegative = false) :
    Writable (.number x)
  /-- A sequence of texts, at least one. -/
  | texts (s : String) (items : List String) : Writable (.list ((s :: items).map .string))

/-- What stands behind the colon of a key. -/
theorem Writable.marked {value : Value} (h : Writable value) (compose : Compose) :
    ∃ written, marked ':' (nodeText 1 false value) = ':' :: written ∧
      written.head?.any isSpacing = true ∧ '\x00' ∉ written ∧
      ReadsBack (composeWith (composeWith (composeWith compose))) written value := by
  cases h with
  | text s =>
    refine ⟨_, marked_scalarText ':' 1 s, rfl, ?_, readsBack_string s⟩
    rw [List.mem_cons, not_or]
    exact ⟨by decide, not_mem_scalarText 1 s⟩
  | number x hwhole hsign =>
    obtain ⟨hstarts, hall⟩ := numberText_spec hwhole hsign
    have hnul : '\x00' ∉ numberText x := fun hmem => absurd (hall _ hmem) (by decide)
    have hhead : (numberText x).head? ≠ some '\n' := fun hhead =>
      absurd (hall _ (List.mem_of_head? hhead)) (by decide)
    refine ⟨' ' :: numberText x, ?_, rfl, ?_, readsBack_number hwhole hsign⟩
    · rw [nodeText_number, Yaml.marked, if_neg hhead]
    · rw [List.mem_cons, not_or]
      exact ⟨by decide, hnul⟩
  | texts s items =>
    have htext := itemsText_strings (s :: items)
    refine ⟨itemsText 1 false ((s :: items).map .string), ?_, ?_, ?_, readsBack_list s items⟩
    · rw [List.map_cons, nodeText_list, ← List.map_cons, Yaml.marked, htext, if_pos]
      rfl
    · rw [htext]
      rfl
    · rw [htext]
      simp only [List.mem_flatMap, itemLine, List.mem_cons, List.mem_append, not_exists, not_and]
      rintro item - (h | h | h | h | h)
      · exact absurd h (by decide)
      · exact absurd (List.mem_replicate.mp h).2 (by decide)
      · exact absurd h (by decide)
      · exact absurd h (by decide)
      · exact not_mem_scalarText 2 item h

/-- An entry of a mapping that is read as it was written. -/
structure WritableEntry (e : String × Value) : Prop where
  /-- Its key is written as it is. -/
  key : IsKey e.1
  /-- Its value can be written. -/
  value : Writable e.2

theorem WritableEntry.reads {e : String × Value} (h : WritableEntry e) (compose : Compose) :
    EntryReads (composeWith (composeWith (composeWith compose))) e := by
  obtain ⟨written, hmarked, hspacing, -, hreads⟩ := h.value.marked compose
  exact ⟨h.key, written, hmarked, hspacing, hreads⟩

theorem WritableEntry.not_mem {e : String × Value} (h : WritableEntry e) :
    '\x00' ∉ entryLine e := by
  obtain ⟨written, hmarked, -, hnul, -⟩ := h.value.marked fun _ _ _ _ => fail .comma
  have hkey := not_mem_of_printable (printable_of_allFollowPlain h.key.plain.follows)
  rw [entryLine, hmarked]
  simp only [List.mem_append, List.mem_cons, List.not_mem_nil, or_false, not_or]
  exact ⟨⟨hkey, by decide, hnul⟩, by decide⟩

/-! ## The text of a mapping -/

theorem entriesText_lines (hkeys : ∀ e ∈ entries, IsKey e.1) :
    entriesText 0 false entries ++ ['\n'] = '\n' :: entries.flatMap entryLine := by
  induction entries with
  | nil => simp [entriesText]
  | cons e entries ih =>
    obtain ⟨hkey, hkeys⟩ := List.forall_mem_cons.mp hkeys
    have hshort : ¬ longestKey < width e.1.toList := Nat.not_lt.mpr hkey.short
    simp [entriesText, hkey.text, hshort, newLine, ih hkeys, entryLine]

theorem toList_dump (hkeys : ∀ e ∈ entries, IsKey e.1) (hne : entries ≠ []) :
    (dump (.map entries)).toList = entries.flatMap entryLine := by
  obtain ⟨e, entries, rfl⟩ := List.exists_cons_of_ne_nil hne
  obtain ⟨hkey, hrest⟩ := List.forall_mem_cons.mp hkeys
  have hshort : ¬ longestKey < width e.1.toList := Nat.not_lt.mpr hkey.short
  rw [dump, String.toList_ofList, nodeText_map]
  simp [entriesText, hkey.text, hshort, entriesText_lines hrest, entryLine]

/-! ## Documents -/

/-- A mapping that begins here is read as the document. -/
theorem goes_compose_entries (hreads : ∀ e ∈ entries, EntryReads (composeWith compose) e)
    (hstands : c.Stands 0 (entries.flatMap entryLine)) (hkeys : entries.keys.Nodup)
    (hne : entries ≠ []) :
    ∃ (node : Node) (d : Cursor),
      Goes (composeWith (composeWith compose) (-1) .blockOut false true) c node d ∧
        node.value = .map entries ∧ d.Stands 0 [] := by
  obtain ⟨x, more, hcons, hx⟩ := entries_begin (fun e he => (hreads e he).key) hne
  have htext : c.AtText := atText_of_leads (leadsText_of_beginsPlain hx) (hstands.rest.trans hcons)
  have hline : ∀ e, entryLine e ≠ [] := fun e =>
    List.append_ne_nil_of_right_ne_nil _ (List.cons_ne_nil _ _)
  have hfuel : entries.length < c.rest.length + 1 := by
    have hlength := length_le_flatMap hline entries
    rw [hstands.rest]
    omega
  have hcolumn : c.column = 0 := by
    rw [column, hstands.column]
    omega
  obtain ⟨d, hentries, hd⟩ := goes_mappingEntries (m := { gathering := { slot := none } }) hreads
    hstands rfl hkeys rfl rfl (fun hnil => absurd hnil hne) hfuel
  have hmapping : Goes (blockMapping (composeWith compose) 0 0 none) c (.mapping entries) d := by
    rw [blockMapping]
    refine .cursor_bind ?_
    rw [hstands.tab]
    exact .bind (.anchor_none _ _) hentries
  have hblock := goes_blockContent 0 false (goes_blockSequence_none htext hstands.tab) hmapping
  have hcontent : Goes (nodeContent (composeWith compose) (-1) .blockOut true (bare false true)) c
      (MappingAttempt.mapping entries).content d := by
    rw [nodeContent, bare]
    simp only [Bool.true_and, Bool.or_true, if_true]
    rw [innerContent]
    refine .cursor_bind ?_
    rw [hcolumn]
    exact .bind hblock (.pure _ _)
  refine ⟨{ present := true, kind := some .mapping, value := .map entries }, d, ?_, rfl, hd⟩
  rw [composeWith]
  refine .bind (goes_nodeProperties_here (htext.scalar.not_sees (by decide))
    (htext.scalar.not_sees (by decide))) (.bind hcontent ?_)
  exact .bind (.anchor_none _ _) (.pure _ _)

/-- Without a percent sign there are no directives. -/
theorem goes_directives_none (fuel : Nat) (hend : c.atEnd = false) (hopens : Opens c.rest)
    (hpercent : c.sees '%' = false) : Goes (directives (fuel + 1) 0 0) c 0 c := by
  have hskip := Goes.skipSeparation c
  rw [separation_of_opens hopens] at hskip
  rw [directives]
  refine .cursor_bind ?_
  rw [if_neg (by rw [hend]; decide)]
  refine .bind hskip (.cursor_bind ?_)
  rw [if_pos (by rw [hpercent]; simp)]
  exact .pure _ _

/-- What a step yields behind a change. -/
theorem Reading.Goes.modify_bind {α : Type} {f : Scan → Scan} {m : Unit → Reading α} {a : α}
    {d : Cursor} {s : Scan} (h : Goes (m ()) (f s).cursor a d) :
    (modify f >>= m) s = .ok (a, { f s with cursor := d }) := h (f s)

/-- A document that is a mapping. -/
theorem document_eq {s : Scan} (hwritable : ∀ e ∈ entries, WritableEntry e)
    (hstands : s.cursor.Stands 0 (entries.flatMap entryLine)) (hkeys : entries.keys.Nodup)
    (hne : entries ≠ []) :
    ∃ s' : Scan, document s = .ok (.map entries, s') ∧ s'.cursor.rest = [] := by
  -- The document takes one level of nesting, and an entry up to three more.
  have hreads : ∀ e ∈ entries, EntryReads (compose (depthLimit - 1)) e := fun e he =>
    (hwritable e he).reads (compose (depthLimit - 4))
  have hopens : Opens s.cursor.rest :=
    hstands.rest ▸ opens_entries fun e he => (hwritable e he).key
  obtain ⟨x, more, hcons, hx⟩ := entries_begin (fun e he => (hwritable e he).key) hne
  have hrest : s.cursor.rest = x :: more := hstands.rest.trans hcons
  have hpercent : x ≠ '%' := by
    rintro rfl
    exact absurd hx (by decide)
  have hhyphen : x ≠ '-' := by
    rintro rfl
    exact absurd hx (by decide)
  obtain ⟨node, d, hgoes, hvalue, hd⟩ := goes_compose_entries hreads hstands hkeys hne
  have hend : s.cursor.atEnd = false := by
    rw [atEnd, hrest]
    rfl
  have hmark : (decide (s.cursor.indent = 0) && decide (s.cursor.rest.take 3 = ['-', '-', '-'])) =
      false := by
    rw [hrest, Bool.and_eq_false_iff]
    right
    simp [hhyphen]
  have hindent : ((s.cursor.indent : Int) - 1) = -1 := by
    rw [hstands.indent]
    rfl
  have hskip := Goes.skipSeparation s.cursor
  rw [separation_of_opens hopens] at hskip
  have hskipEnd := Goes.skipSeparation d
  rw [separation_of_opens (by rw [hd.rest]; rintro y ⟨⟩)] at hskipEnd
  have hdirectives := goes_directives_none s.cursor.rest.length hend hopens
    (by rw [sees_of_rest hrest]; simpa using hpercent)
  refine ⟨_, Goes.modify_bind (.cursor_bind (.bind hdirectives (.bind hskip (.cursor_bind ?_)))),
    hd.rest⟩
  simp only [hmark, Bool.false_eq_true, if_false, ne_eq, not_true_eq_false]
  refine .cursor_bind ?_
  rw [hindent]
  refine .bind hgoes (.bind hskipEnd (.cursor_bind ?_))
  simp only [atDocumentMark, hd.rest, List.length_nil, Bool.and_false, Bool.false_eq_true,
    if_false, hvalue]
  exact .pure _ _

theorem printable_of_beginsPlain {x : Char} (h : beginsPlain x = true) : isPrintable x = true := by
  rw [beginsPlain, Bool.and_eq_true, Bool.and_eq_true] at h
  exact h.1.1

/-- A text that begins with a printable character other than a blank and ends with a line feed is
read as it is. -/
theorem prepare_of_line {x : Char} (hx : isPrintable x = true) (hlast : text.getLast? = some '\n')
    (hcons : text = x :: rest) : prepare text = text := by
  have hmark : x.toNat ≠ 0xFEFF := by
    intro hmark
    rw [isPrintable, hmark] at hx
    exact absurd hx (by decide)
  have hbreak : isBreak '\n' = true := by decide
  rw [prepare, hlast]
  simp only [hbreak, if_true]
  rw [hcons]
  exact if_neg hmark

/-- At the beginning of a text without indentation. -/
theorem stands_start (h : text.head? ≠ some ' ') : (Cursor.start text).Stands 0 text := by
  have hskip : ({ rest := text } : Cursor).skipWhile (· = ' ') = { rest := text } := by
    refine skipWhile_of_not ?_
    cases text with
    | nil => rfl
    | cons x rest => simpa using h
  have hnone : ({ rest := text } : Cursor).ahead (· = ' ') = [] := by
    cases text with
    | nil => rfl
    | cons x rest =>
      have hx : x ≠ ' ' := fun hx => h (congrArg some hx)
      simp [ahead, hx]
  rw [start, skipIndent, hskip, hnone]
  exact ⟨rfl, rfl, rfl, rfl⟩

/-- Where two characters or more are left, a document is read. -/
theorem documents_succ {s : Scan} (h : 2 ≤ s.cursor.rest.length) (fuel : Nat)
    (reversed : List Value) : documents (fuel + 1) reversed s =
      (document s >>= fun p => documents fuel (p.1 :: reversed) p.2) := by
  rw [documents]
  show (if s.cursor.rest.length < 2 then (pure reversed.reverse : Reading (List Value))
    else document >>= fun v => documents fuel (v :: reversed)) s = _
  rw [if_neg (Nat.not_lt.mpr h)]
  rfl

/-- Where nothing is left, no further document is read. -/
theorem documents_end {s : Scan} (h : s.cursor.rest = []) (fuel : Nat) (reversed : List Value) :
    documents fuel reversed s = .ok (reversed.reverse, s) := by
  cases fuel with
  | zero => rfl
  | succ fuel =>
    rw [documents]
    show (if s.cursor.rest.length < 2 then (pure reversed.reverse : Reading (List Value))
      else document >>= fun v => documents fuel (v :: reversed)) s = _
    rw [h, if_pos (by decide)]
    rfl

/-- **A mapping is read as it was written.** -/
theorem load_dump (file : Option String) (hwritable : ∀ e ∈ entries, WritableEntry e)
    (hkeys : entries.keys.Nodup) (hne : entries ≠ []) :
    load file (dump (.map entries)) = .ok (some (.map entries)) := by
  have htext := toList_dump (fun e he => (hwritable e he).key) hne
  obtain ⟨x, more, hcons, hx⟩ := entries_begin (fun e he => (hwritable e he).key) hne
  have hnot : ∀ y, beginsPlain y = false → x ≠ y := by
    rintro y hy rfl
    rw [hx] at hy
    cases hy
  have hlast : (entries.flatMap entryLine).getLast? = some '\n' := by
    rw [← htext, dump, String.toList_ofList, List.getLast?_append, List.getLast?_singleton]
    rfl
  have hnul : '\x00' ∉ entries.flatMap entryLine := by
    rw [List.mem_flatMap]
    rintro ⟨e, he, hmem⟩
    exact (hwritable e he).not_mem hmem
  have hprepare := prepare_of_line (printable_of_beginsPlain hx) hlast hcons
  have hstands : (Cursor.start (entries.flatMap entryLine)).Stands 0 (entries.flatMap entryLine) :=
    stands_start fun hblank => hnot ' ' (by decide) (by simpa [hcons] using hblank)
  obtain ⟨s, hdocument, hend⟩ := document_eq
    (s := { cursor := Cursor.start (entries.flatMap entryLine) }) hwritable hstands hkeys hne
  -- A single character is no document, but the first one is not the line feed at the end.
  have hlength : 2 ≤ (Cursor.start (entries.flatMap entryLine)).rest.length := by
    rw [hstands.rest, hcons]
    rw [hcons] at hlast
    cases more with
    | nil => exact absurd (Option.some.inj hlast) (hnot '\n' (by decide))
    | cons y more => simp
  have hdocuments : (documents ((entries.flatMap entryLine).length + 1) []).run
      { cursor := Cursor.start (entries.flatMap entryLine) } = .ok ([.map entries], s) := by
    show documents _ _ _ = _
    rw [documents_succ hlength, hdocument]
    exact documents_end hend _ _
  unfold load
  rw [htext, hprepare]
  simp only [List.contains_eq_mem, hnul, decide_false, Bool.false_eq_true, if_false, hdocuments]

end GoldenRun.Yaml
