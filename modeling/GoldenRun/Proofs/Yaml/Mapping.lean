import GoldenRun.Proofs.Yaml.Collection
import Mathlib.Data.List.TakeWhile

/-!
# Mappings are read as they were written

* `IsKey`: a key that is written as it is
* `EntryReads`: an entry that is read as it was written
* `goes_mappingEntries`: a mapping is read one entry after the other
-/

namespace GoldenRun.Yaml

open GoldenRun.Number GoldenRun.Text Reading Cursor

variable {rest next : List Char} {c : Cursor} {fuel : Nat} {compose : Compose} {name : String}

/-! ## Keys -/

/-- A key that is written as it is. -/
structure IsKey (name : String) : Prop where
  /-- It is written plain. -/
  text : scalarText true 1 name = name.toList
  /-- It may stand plain. -/
  isPlainText : isPlainText name.toList = true
  /-- It means itself. -/
  clear : isAmbiguous name = false
  /-- No mark that parts documents begins as it does. -/
  point : name.toList.head? ≠ some '.'
  /-- It stands on the line of its value. -/
  short : width name.toList ≤ longestKey
  /-- It is no number. -/
  index : Entries.indexOf? name = none

theorem IsKey.plain (h : IsKey name) : IsPlain name.toList :=
  (isPlain_of_isPlainText h.isPlainText).1

theorem IsKey.begins_with (h : IsKey name) :
    ∃ x more, name.toList = x :: more ∧ beginsPlain x = true ∧ x ≠ '.' := by
  obtain ⟨x, more, hcons⟩ := List.exists_cons_of_ne_nil h.plain.ne_nil
  have hbegins := (isPlain_of_isPlainText h.isPlainText).2
  have hpoint := h.point
  rw [hcons] at hbegins hpoint
  exact ⟨x, more, hcons, hbegins, fun hx => hpoint (congrArg some hx)⟩

/-- A key begins here. -/
theorem IsKey.atText (h : IsKey name) (hrest : c.rest = name.toList ++ rest) : c.AtText := by
  obtain ⟨x, more, hcons, hx, -⟩ := h.begins_with
  rw [hcons] at hrest
  exact atText_of_leads (leadsText_of_beginsPlain hx) hrest

theorem IsKey.clear_cursor (h : IsKey name) (hstands : c.Stands 0 (name.toList ++ rest)) :
    c.Clear := by
  obtain ⟨x, more, hcons, hx, hpoint⟩ := h.begins_with
  have hrest : c.rest = x :: (more ++ rest) := by rw [hstands.rest, hcons, List.cons_append]
  have hhyphen : x ≠ '-' := by
    rintro rfl
    exact absurd hx (by decide)
  refine ⟨Nat.le_of_eq (by rw [hstands.column, Nat.add_zero]), ?_⟩
  rw [atDocumentMark, hrest]
  cases hmore : more ++ rest with
  | nil => simp
  | cons y tail => cases tail <;> simp [hhyphen, hpoint]

/-- A key is read as the text that it is. -/
theorem IsKey.goes_compose (h : IsKey name) (compose : Compose)
    (hstands : c.Stands 0 (name.toList ++ ':' :: rest))
    (hspacing : rest.head?.any isSpacing = true) :
    Goes (composeWith compose 0 .flowOut false true) c
      { present := true, tag := some plainTag, kind := some .scalar, value := .string name }
      (advanceBy name.toList.length c) := by
  have hscalar := (h.atText hstands.rest).scalar
  have hread := goes_scalarContent_plain .flowOut (by decide) h.plain hstands.rest
    (goes_plainScalar_key 0 h.plain (h.clear_cursor hstands) hstands.rest hspacing)
  obtain ⟨hvalue, hmerge⟩ := plainValue_of_clear h.clear
  rw [← String.ofList_toList (s := name)] at hvalue hmerge ⊢
  rw [String.toList_ofList]
  exact goes_compose_scalar (goes_nodeProperties_here (hscalar.not_sees (by decide))
    (hscalar.not_sees (by decide))) hscalar hread rfl (goes_node_plain hvalue hmerge)

/-- The state of a mapping behind a key and its colon. -/
def MappingState.behindKey (m : MappingState) (name : String) (place : Cursor) : MappingState :=
  { m with
    key := ⟨some plainTag, .string name, place⟩
    atExplicit := false
    detected := true }

/-- Where a key begins, an entry does. -/
theorem IsKey.goes_entryStart (h : IsKey name) (compose : Compose) {m : MappingState}
    (hexplicit : m.atExplicit = false) (hstands : c.Stands 0 (name.toList ++ ':' :: rest))
    (hspacing : rest.head?.any isSpacing = true) :
    Goes (entryStart (composeWith compose) 0 m) c (.entry (m.behindKey name c) false)
      (advanceBy (name.toList.length + 1) c) := by
  have htext := h.atText hstands.rest
  have hcompose := h.goes_compose compose hstands hspacing
  rw [← advanceBy_add]
  generalize hd : advanceBy name.toList.length c = d at hcompose
  have hbehind : d.rest = ':' :: rest := by
    rw [← hd, rest_advanceBy_of_rest hstands.rest]
  have hline : d.line = c.line := by rw [← hd, (line_advanceBy _ c).1]
  have hskip : d.skipWhile isWhite = d := skipWhile_of_not (by rw [hbehind]; rfl)
  have hcolon : d.sees ':' = true := by
    rw [sees, hbehind]
    rfl
  have hsecond : d.second?.any isSpacing = true := by
    rw [second?, hbehind, List.getElem?_cons_succ, ← List.head?_eq_getElem?, hspacing]
  rw [entryStart]
  refine .cursor_bind ?_
  simp only [htext.marks.2.1, htext.marks.2.2, Bool.false_and, Bool.false_eq_true, if_false]
  refine .bind hcompose ?_
  dsimp only
  rw [Bool.not_true, if_neg Bool.false_ne_true]
  refine .cursor_bind ?_
  simp only [hline, if_true, hskip]
  refine .moveTo_bind ?_
  simp only [hcolon, if_true]
  refine .moveTo_bind ?_
  simp only [hsecond, Bool.not_true, Bool.false_eq_true, if_false]
  refine .bind (goes_settle ?_) (.pure _ _)
  exact hexplicit

/-! ## Entries -/

theorem contains_of_not_mem_keys {entries : Entries} (hnew : name ∉ entries.keys) :
    entries.contains name = false := by
  rw [Entries.contains, List.any_eq_false]
  intro e he heq
  rw [decide_eq_true_eq] at heq
  exact hnew (List.mem_map.mpr ⟨e, he, heq⟩)

/-- A new key that is no number goes to the end. -/
theorem put_of_new {entries : Entries} (hindex : Entries.indexOf? name = none)
    (hnew : name ∉ entries.keys) (value : Value) :
    entries.put name value = entries ++ [(name, value)] := by
  have hbefore : ∀ e, Entries.standsBefore name e = true := by
    intro e
    rw [Entries.standsBefore, hindex]
  rw [Entries.put, contains_of_not_mem_keys hnew, if_neg (by decide)]
  rw [List.takeWhile_eq_self_iff.mpr fun e _ => hbefore e,
    List.dropWhile_eq_nil_iff.mpr fun e _ => hbefore e]

/-- A new key and its value are added to a mapping. -/
theorem goes_addEntry {g : Gathering} (place : Cursor) (value : Value)
    (hindex : Entries.indexOf? name = none) (hnew : name ∉ g.entries.keys) (hslot : g.slot = none)
    (hmerged : g.merged = []) :
    Goes (addEntry g ⟨some plainTag, .string name, place⟩ value) c
      { g with entries := g.entries ++ [(name, value)] } c := by
  have htaken : g.isTaken name = false := by
    rw [Gathering.isTaken, contains_of_not_mem_keys hnew, Bool.false_and]
  have hput : g.put name value = { g with entries := g.entries ++ [(name, value)] } := by
    rw [Gathering.put, put_of_new hindex hnew, hmerged]
    rfl
  have hpublish : ∀ g : Gathering, g.slot = none → Goes g.publish c g c := by
    intro g hslot
    rw [Gathering.publish, hslot]
    exact .bind (.pure _ _) (.pure _ _)
  have hplain : (some plainTag = some mergeTag) = False := by decide
  rw [addEntry]
  simp only [keyText?, Value.text, hplain, if_false, htaken, Bool.false_eq_true, hput]
  exact hpublish _ hslot

/-- An entry of a mapping, with the end of its line. -/
def entryLine (e : String × Value) : List Char :=
  e.1.toList ++ marked ':' (nodeText 1 false e.2) ++ ['\n']

/-- An entry that is read as it was written. -/
structure EntryReads (compose : Compose) (e : String × Value) : Prop where
  /-- Its key is written as it is. -/
  key : IsKey e.1
  /-- Its value is read back. -/
  value : ∃ written, marked ':' (nodeText 1 false e.2) = ':' :: written ∧
    written.head?.any isSpacing = true ∧ ReadsBack compose written e.2

/-- The mapping with a further entry. -/
def MappingState.withEntry (m : MappingState) (e : String × Value) : MappingState :=
  { m with
    gathering := { m.gathering with entries := m.gathering.entries ++ [e] }
    key := {}
    atExplicit := false
    detected := true }

/-- What stands behind a key is read as the value, and both are added to the mapping. -/
theorem goes_entryRest {m : MappingState} (place : Cursor) {value : Value} {written : List Char}
    (hreads : ReadsBack compose written value) (hrest : c.rest = written ++ '\n' :: next)
    (hnext : Opens next) (hline : c.InLine) (htab : c.tab = none)
    (hindex : Entries.indexOf? name = none) (hnew : name ∉ m.gathering.entries.keys)
    (hslot : m.gathering.slot = none) (hmerged : m.gathering.merged = []) :
    ∃ d : Cursor, Goes (entryRest compose 0 false (m.behindKey name place)) c
        (m.withEntry (name, value)) d ∧ d.Stands 0 next ∧ c.line < d.line := by
  obtain ⟨node, d, hgoes, hpresent, hvalue, hstands, hlater⟩ := hreads c next hrest hnext hline htab
  have hadd := goes_addEntry (c := d) (g := m.gathering) place value hindex hnew hslot hmerged
  refine ⟨(d.separation true).2, ?_, hstands, hlater⟩
  rw [entryRest]
  refine .cursor_bind (.bind hgoes ?_)
  simp only [MappingState.behindKey, hpresent, hvalue, Bool.false_eq_true, if_false, if_true]
  exact .bind hadd (.bind (.skipSeparation d) (.pure _ _))

/-! ## Mappings -/

/-- Where entries were read, a mapping that ends is these entries. -/
theorem goes_finish_detected {m : MappingState} (hexplicit : m.atExplicit = false)
    (hdetected : m.detected = true) (otherwise : MappingAttempt) :
    Goes (m.finish otherwise) c (.mapping m.gathering.entries) c := by
  rw [MappingState.finish]
  refine .bind (goes_settle hexplicit) ?_
  rw [hdetected]
  exact .pure _ _

/-- One entry is read, and the mapping goes on behind its line. -/
theorem goes_mappingEntries_entry {e : String × Value} {m : MappingState} (fuel : Nat)
    (hreads : EntryReads (composeWith compose) e) (hstands : c.Stands 0 (entryLine e ++ next))
    (hnext : Opens next) (hexplicit : m.atExplicit = false)
    (hnew : e.1 ∉ m.gathering.entries.keys) (hslot : m.gathering.slot = none)
    (hmerged : m.gathering.merged = []) :
    ∃ d : Cursor, d.Stands 0 next ∧ ∀ (attempt : MappingAttempt) (f : Cursor),
      Goes (mappingEntries (composeWith compose) 0 0 fuel (m.withEntry e)) d attempt f →
        Goes (mappingEntries (composeWith compose) 0 0 (fuel + 1) m) c attempt f := by
  obtain ⟨hkey, written, hmarked, hspacing, hback⟩ := hreads
  have hline : entryLine e ++ next = e.1.toList ++ ':' :: (written ++ '\n' :: next) := by
    simp [entryLine, hmarked]
  rw [hline] at hstands
  have hspacing' : (written ++ '\n' :: next).head?.any isSpacing = true := by
    cases written with
    | nil => rfl
    | cons x more => exact hspacing
  have hstart := hkey.goes_entryStart compose hexplicit hstands hspacing'
  set d := advanceBy (e.1.toList.length + 1) c with hd
  have hbehind : d.rest = written ++ '\n' :: next := by
    have hsplit : e.1.toList ++ ':' :: (written ++ '\n' :: next) =
        (e.1.toList ++ [':']) ++ (written ++ '\n' :: next) := by simp
    rw [hd, rest_advanceBy, hstands.rest, hsplit, List.drop_left' (by simp)]
  have hin : d.InLine := by
    obtain ⟨x, more, hcons, -⟩ := hkey.begins_with
    have hrest : c.rest = x :: (more ++ ':' :: (written ++ '\n' :: next)) := by
      rw [hstands.rest, hcons, List.cons_append]
    exact ((hkey.clear_cursor hstands).advance hrest).advanceBy _
  obtain ⟨hsame, -, -, htab⟩ := line_advanceBy (e.1.toList.length + 1) c
  rw [← hd] at hsame htab
  obtain ⟨f, hrest, hf, hlater⟩ := goes_entryRest c hback hbehind hnext hin
    (htab.trans hstands.tab) hkey.index hnew hslot hmerged
  refine ⟨f, hf, fun attempt g hthen => ?_⟩
  -- What follows stands on a later line and is not indented, so it does not belong to the value.
  have hplace : (decide (f.line = c.line) || decide ((0 : Int) < f.indent)) = false := by
    rw [hf.indent, Bool.or_eq_false_iff, decide_eq_false_iff_not]
    exact ⟨by omega, by decide⟩
  have hnotAbove : ¬ (f.indent : Int) < 0 := by omega
  rw [mappingEntries]
  refine .cursor_bind ?_
  simp only [(hkey.atText hstands.rest).scalar.not_atEnd, hstands.tab, hexplicit,
    Bool.false_eq_true, if_false]
  refine .bind hstart (.cursor_bind ?_)
  simp only [hsame, decide_true, Bool.true_or, if_true]
  refine .bind hrest (.cursor_bind ?_)
  simp only [hplace, Bool.false_and, Bool.false_eq_true, if_false, hnotAbove]
  exact hthen

/-- Entries begin as their first key does. -/
theorem entries_begin {entries : Entries} (hkeys : ∀ e ∈ entries, IsKey e.1) (hne : entries ≠ []) :
    ∃ x more, entries.flatMap entryLine = x :: more ∧ beginsPlain x = true := by
  obtain ⟨e, entries, rfl⟩ := List.exists_cons_of_ne_nil hne
  obtain ⟨x, more, hcons, hx, -⟩ := (hkeys e List.mem_cons_self).begins_with
  refine ⟨x, more ++ marked ':' (nodeText 1 false e.2) ++ ['\n'] ++ entries.flatMap entryLine,
    ?_, hx⟩
  rw [List.flatMap_cons, entryLine, hcons]
  rfl

/-- Where entries are written, the first one begins, or nothing follows. -/
theorem opens_entries {entries : Entries} (hkeys : ∀ e ∈ entries, IsKey e.1) :
    Opens (entries.flatMap entryLine) := by
  by_cases hne : entries = []
  · subst hne
    rintro x ⟨⟩
  · obtain ⟨x, more, hcons, hx⟩ := entries_begin hkeys hne
    have hleads := leadsText_of_beginsPlain hx
    rw [leadsText, Bool.and_eq_true, Bool.not_eq_true'] at hleads
    rw [hcons]
    refine opens_cons hleads.1 ?_
    rintro rfl
    exact absurd hx (by decide)

/-- A mapping is read one entry after the other. -/
theorem goes_mappingEntries {entries : Entries} {m : MappingState}
    (hreads : ∀ e ∈ entries, EntryReads (composeWith compose) e)
    (hstands : c.Stands 0 (entries.flatMap entryLine)) (hexplicit : m.atExplicit = false)
    (hkeys : (m.gathering.entries.keys ++ entries.keys).Nodup) (hslot : m.gathering.slot = none)
    (hmerged : m.gathering.merged = []) (hdetected : entries = [] → m.detected = true)
    (hfuel : entries.length < fuel) :
    ∃ d : Cursor, Goes (mappingEntries (composeWith compose) 0 0 fuel m) c
      (.mapping (m.gathering.entries ++ entries)) d ∧ d.Stands 0 [] := by
  induction entries generalizing c m fuel with
  | nil =>
    obtain ⟨fuel, rfl⟩ := Nat.exists_eq_add_one.mpr (Nat.zero_lt_of_lt hfuel)
    have hend : c.atEnd = true := by
      rw [atEnd, hstands.rest]
      rfl
    refine ⟨c, ?_, hstands⟩
    rw [mappingEntries, List.append_nil]
    refine .cursor_bind ?_
    rw [if_pos hend]
    exact goes_finish_detected hexplicit (hdetected rfl) .nothing
  | cons e entries ih =>
    obtain ⟨fuel, rfl⟩ := Nat.exists_eq_add_one.mpr (Nat.zero_lt_of_lt hfuel)
    obtain ⟨he, hrest⟩ := List.forall_mem_cons.mp hreads
    have hnew : e.1 ∉ m.gathering.entries.keys := by
      intro hmem
      exact (List.nodup_append.mp hkeys).2.2 _ hmem _ List.mem_cons_self rfl
    -- The keys read and the keys to come stay the same list, so no key comes twice.
    have hkeys' : ((m.withEntry e).gathering.entries.keys ++ Entries.keys entries).Nodup := by
      have hshift : (m.withEntry e).gathering.entries.keys ++ Entries.keys entries =
          m.gathering.entries.keys ++ Entries.keys (e :: entries) := by
        simp [MappingState.withEntry, Entries.keys]
      rwa [hshift]
    obtain ⟨d, hd, hthen⟩ := goes_mappingEntries_entry fuel he hstands
      (opens_entries fun e he => (hrest e he).key) hexplicit hnew hslot hmerged
    obtain ⟨f, hgoes, hf⟩ := ih (m := m.withEntry e) hrest hd rfl hkeys' hslot hmerged
      (fun _ => rfl) (Nat.lt_of_succ_lt_succ hfuel)
    refine ⟨f, hthen _ _ ?_, hf⟩
    simpa [MappingState.withEntry] using hgoes

end GoldenRun.Yaml
