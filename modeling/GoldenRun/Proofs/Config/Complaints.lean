import GoldenRun.Proofs.Config.Grammar
import Mathlib.Data.List.Count
import Mathlib.Data.List.Nodup

/-!
# All that is wrong with a configuration file

A file that is refused is refused with all that is wrong with it, and with nothing else.  A spot of
the file offends (`Spot.Offends`) if there is a value that the schema does not admit there; the
problems of a file are texts, and a text leads back to the spot that it is about.

* `mem_entryComplaints`: what is complained of, key by key
* `offends_of_mem_complaints`: a complaint is about a spot that offends
* `eq_spot_of_text`: the text of a complaint tells its spot
* `Settings.given_ofEntries`: what a file that is accepted sets is what stands in it
* `ofDocument_reports`: a file is taken as it is, or all its offences are reported and no other
-/

namespace GoldenRun

open GoldenRun.Number GoldenRun.Text Yaml

variable {entries : Entries} {key : Key} {value : Value} {spot : Spot} {c : Complaint}
  {name : String}

/-! ## Offences -/

/-- The values that a key admits; of a build command the elements are spots of their own. -/
def Key.Admits (key : Key) (value : Value) : Prop :=
  match key with
  | .buildCommand => ∃ items, value = .list items ∧ items ≠ []
  | key => key.Accepts value

/-- Whether a value is a text that is not empty. -/
def Value.IsFilled (value : Value) : Prop := ∃ text, value = .string text ∧ text ≠ ""

/-- Whether the value at a spot of a file is there and should be another. -/
def Spot.Offends (entries : Entries) : Spot → Prop
  | .whole => False
  | .key key => ∃ value, entries.get? key.name = some value ∧ ¬ key.Admits value
  | .element i => ∃ (items : List Value) (item : Value),
      entries.get? "buildCommand" = some (.list items) ∧ items[i]? = some item ∧ ¬ item.IsFilled

/-- The problem with a key that is not known. -/
def unknownProblem (name : String) : String :=
  "must NOT have additional properties (" ++ name ++ ")"

/-- `Reports entries problems`: the problems are those of the file with these entries. -/
structure Reports (entries : Entries) (problems : List String) : Prop where
  /-- There is one problem for each unknown key. -/
  unknown : ∀ name ∈ entries.keys, (∀ key : Key, key.name ≠ name) →
    problems.count (unknownProblem name) = 1
  /-- A key whose value is not accepted has a problem, and no other key has one. -/
  key : ∀ key : Key, (∃ problem ∈ problems, ("/" ++ key.name).toList <+: problem.toList) ↔
    ∃ value, entries.get? key.name = some value ∧ ¬ key.Accepts value
  /-- An element of the build command that is no text, or the empty one, has a problem, and no other
  element has one. -/
  element : ∀ i : Nat, (∃ problem ∈ problems, ∃ words,
      problem = "/buildCommand/" ++ toString i ++ ": " ++ words) ↔ (Spot.element i).Offends entries
  /-- There is no problem with anything else. -/
  only : ∀ problem ∈ problems,
    (∃ name ∈ entries.keys, (∀ key : Key, key.name ≠ name) ∧ problem = unknownProblem name) ∨
    ∃ spot words, spot.Offends entries ∧
      problem = Complaint.spotText spot ++ ": " ++ words

theorem Spot.ne_whole_of_offends (h : spot.Offends entries) : spot ≠ .whole := by
  rintro rfl
  exact h

namespace Schema

theorem not_isKnown_iff : (!Key.isKnown name) = true ↔ ∀ key : Key, key.name ≠ name := by
  rw [Bool.not_eq_true', ← Bool.not_eq_true, isKnown_iff, not_exists]

theorem mem_elementComplaints {items : List Value} :
    c ∈ elementComplaints items ↔
      ∃ i item, items[i]? = some item ∧ ∃ wrong ∈ wrongText item, c = ⟨.element i, wrong⟩ := by
  simp only [elementComplaints, List.mem_flatMap, List.mem_map]
  constructor
  · rintro ⟨⟨item, i⟩, hmem, wrong, hwrong, rfl⟩
    exact ⟨i, item, List.mk_mem_zipIdx_iff_getElem?.mp hmem, wrong, hwrong, rfl⟩
  · rintro ⟨i, item, hitem, wrong, hwrong, rfl⟩
    exact ⟨(item, i), List.mk_mem_zipIdx_iff_getElem?.mpr hitem, wrong, hwrong, rfl⟩

/-- What is complained of: the keys that are not known, and the values of the others. -/
theorem mem_entryComplaints :
    c ∈ entryComplaints entries ↔
      (∃ name ∈ entries.keys, (∀ key : Key, key.name ≠ name) ∧ c = ⟨.whole, .unknownKey name⟩) ∨
      ∃ key value, entries.get? (Key.name key) = some value ∧ c ∈ complaints key value := by
  have hall : ∀ key : Key, key ∈ Key.all := by
    intro key
    cases key <;> decide
  rw [entryComplaints, List.mem_append]
  refine or_congr ?_ ?_
  · simp only [List.mem_map, List.mem_filter, not_isKnown_iff, and_assoc, @eq_comm _ c]
  · rw [List.mem_flatMap]
    constructor
    · rintro ⟨key, -, hc⟩
      cases hvalue : entries.get? key.name with
      | none => simp [hvalue] at hc
      | some value =>
        rw [hvalue] at hc
        exact ⟨key, value, hvalue, hc⟩
    · rintro ⟨key, value, hvalue, hc⟩
      exact ⟨key, hall key, by rw [hvalue]; exact hc⟩

/-- A complaint about the value of a key is about the key, or about an element of the build
command. -/
theorem mem_complaints (hc : c ∈ complaints key value) :
    c.spot = .key key ∧ ¬ key.Admits value ∨
      key = .buildCommand ∧ ∃ items, value = .list items ∧ c ∈ elementComplaints items := by
  have hother : ∀ wrongs : List Wrong, c ∈ wrongs.map (⟨.key key, ·⟩) → c.spot = .key key := by
    intro wrongs hc
    obtain ⟨wrong, -, rfl⟩ := List.mem_map.mp hc
    rfl
  -- Only the build command has complaints about anything but its value as a whole.
  have hnone : key.Accepts value → complaints key value = [] := complaints_eq_nil_iff.mpr
  cases key with
  | buildCommand =>
    cases value with
    | list items =>
      rw [complaints, List.mem_append] at hc
      rcases hc with hc | hc
      · split at hc
        · next hempty =>
          refine .inl ⟨hother _ hc, ?_⟩
          rintro ⟨items', hitems, hne⟩
          cases hitems
          exact hne hempty
        · cases hc
      · exact .inr ⟨rfl, items, rfl, hc⟩
    | _ => exact .inl ⟨hother [.notArray] hc, by rintro ⟨items, hitems, -⟩; cases hitems⟩
  | _ =>
    refine .inl ⟨hother _ hc, fun hadmits => ?_⟩
    rw [hnone hadmits] at hc
    cases hc

/-- A complaint about a value is about a spot that offends. -/
theorem offends_of_mem_complaints (hvalue : entries.get? key.name = some value)
    (hc : c ∈ complaints key value) : c.spot.Offends entries := by
  rcases mem_complaints hc with ⟨hspot, hwrong⟩ | ⟨rfl, items, rfl, helement⟩
  · rw [hspot]
    exact ⟨value, hvalue, hwrong⟩
  · obtain ⟨i, item, hitem, wrong, hmem, rfl⟩ := mem_elementComplaints.mp helement
    refine ⟨items, item, hvalue, hitem, fun hfilled => ?_⟩
    rw [wrongText_eq_nil.mpr hfilled] at hmem
    cases hmem

end Schema

/-! ## Texts of complaints -/

namespace Complaint

/-- The text of a complaint about a value begins with its spot. -/
theorem text_of_spot (hspot : c.spot ≠ .whole) :
    c.text = spotText c.spot ++ ": " ++ words c.wrong := by
  obtain ⟨spot, wrong⟩ := c
  cases spot with
  | whole => exact absurd rfl hspot
  | key key => rfl
  | element i => rfl

theorem text_unknownKey (name : String) :
    (⟨.whole, .unknownKey name⟩ : Complaint).text = unknownProblem name := rfl

theorem not_mem_name {mark : Char} (hmark : mark ∈ [':', '/']) (key : Key) :
    mark ∉ key.name.toList := by
  rw [List.mem_cons, List.mem_singleton] at hmark
  rcases hmark with rfl | rfl <;> cases key <;> decide

theorem not_mem_toString {mark : Char} (hmark : mark ∈ [':', '/']) (i : Nat) :
    mark ∉ (toString i).toList := by
  intro hmem
  rw [Nat.toString_eq_repr, Nat.repr, String.toList_ofList] at hmem
  have hdigit := Nat.isDigit_of_mem_toDigits (by omega) (by omega) hmem
  rw [List.mem_cons, List.mem_singleton] at hmark
  rcases hmark with rfl | rfl <;> cases hdigit

theorem toList_spotText_key (key : Key) :
    (spotText (.key key)).toList = '/' :: key.name.toList := by
  simp [spotText]

theorem toList_spotText_element (i : Nat) :
    (spotText (.element i)).toList =
      '/' :: (Key.buildCommand.name.toList ++ '/' :: (toString i).toList) := by
  simp [spotText]

theorem colon_not_mem_spotText (spot : Spot) : ':' ∉ (spotText spot).toList := by
  have hmark : ':' ∈ [':', '/'] := List.mem_cons_self
  cases spot with
  | whole => simp [spotText]
  | key key => simpa [toList_spotText_key] using not_mem_name hmark key
  | element i =>
    have hname := not_mem_name hmark .buildCommand
    have hnumber := not_mem_toString hmark i
    rw [toList_spotText_element, List.mem_cons, List.mem_append, List.mem_cons]
    rintro (h | h | h | h)
    · cases h
    · exact hname h
    · cases h
    · exact hnumber h

theorem name_injective : Function.Injective Key.name := by
  intro a b hab
  cases a <;> cases b <;> first | rfl | exact absurd hab (by decide)

theorem toString_injective : Function.Injective (toString : Nat → String) := by
  intro i j hij
  rw [Nat.toString_eq_repr, Nat.toString_eq_repr, Nat.repr, Nat.repr, String.ofList_inj] at hij
  rw [← digitsValue_toDigits i, hij, digitsValue_toDigits]

theorem spotText_injective : Function.Injective spotText := by
  intro a b hab
  have hlist := congrArg String.toList hab
  have hslash : ∀ (key : Key) (i : Nat), (spotText (.key key)).toList ≠
      (spotText (.element i)).toList := by
    intro key i h
    rw [toList_spotText_key, toList_spotText_element, List.cons.injEq] at h
    have hmem : '/' ∈ key.name.toList := by
      rw [h.2]
      exact List.mem_append_right _ List.mem_cons_self
    exact not_mem_name (by decide) key hmem
  cases a with
  | whole => cases b <;> simp [spotText] at hlist ⊢
  | key key =>
    cases b with
    | whole => simp [spotText] at hlist
    | key key' =>
      rw [toList_spotText_key, toList_spotText_key, List.cons.injEq] at hlist
      exact congrArg Spot.key (name_injective (String.toList_inj.mp hlist.2))
    | element i => exact absurd hlist (hslash key i)
  | element i =>
    cases b with
    | whole => simp [spotText] at hlist
    | key key => exact absurd hlist.symm (hslash key i)
    | element j =>
      rw [toList_spotText_element, toList_spotText_element, List.cons.injEq,
        List.append_cancel_left_eq, List.cons.injEq] at hlist
      exact congrArg Spot.element (toString_injective (String.toList_inj.mp hlist.2.2))

/-- The text of a complaint about a value tells its spot. -/
theorem eq_spot_of_text {words words' : String} {spot' : Spot}
    (h : spotText spot ++ ": " ++ words = spotText spot' ++ ": " ++ words') : spot = spot' := by
  have hlist := congrArg String.toList h
  simp only [String.toList_append, List.append_assoc] at hlist
  have hcut : ∀ (spot : Spot) (rest : List Char),
      ((spotText spot).toList ++ ':' :: rest).takeWhile (· ≠ ':') = (spotText spot).toList := by
    intro spot rest
    have hfree : ∀ c ∈ (spotText spot).toList, decide (c ≠ ':') = true := by
      intro c hc
      have hne : c ≠ ':' := fun heq => colon_not_mem_spotText spot (heq ▸ hc)
      exact decide_eq_true hne
    rw [List.takeWhile_append_of_pos hfree]
    simp
  have hspots := congrArg (List.takeWhile (· ≠ ':')) hlist
  exact spotText_injective (String.toList_inj.mp (((hcut _ _).symm.trans hspots).trans (hcut _ _)))

/-- No name of a key continues another. -/
theorem eq_of_name_prefix {key' : Key} {rest : List Char}
    (h : key.name.toList <+: key'.name.toList ++ rest) : key = key' := by
  have hnames : ∀ a b : Key, a.name.toList <+: b.name.toList → a = b := by
    intro a b
    cases a <;> cases b <;> decide
  rcases List.prefix_or_prefix_of_prefix h (List.prefix_append _ rest) with hshort | hlong
  · exact hnames key key' hshort
  · exact (hnames key' key hlong).symm

/-- The text of a complaint about the value of a key begins with the key. -/
theorem text_of_mem_complaints (hc : c ∈ Schema.complaints key value) :
    ∃ rest, c.text.toList = '/' :: (key.name.toList ++ rest) := by
  rcases Schema.mem_complaints hc with ⟨hspot, -⟩ | ⟨rfl, items, -, helement⟩
  · refine ⟨(": " ++ words c.wrong).toList, ?_⟩
    rw [text_of_spot (by rw [hspot]; simp), hspot, String.append_assoc, String.toList_append,
      toList_spotText_key]
    rfl
  · obtain ⟨i, item, -, wrong, -, rfl⟩ := Schema.mem_elementComplaints.mp helement
    refine ⟨'/' :: (toString i).toList ++ (": " ++ words wrong).toList, ?_⟩
    rw [text_of_spot (by simp), String.append_assoc, String.toList_append, toList_spotText_element,
      List.cons_append, List.append_assoc]

/-- It begins with no other key. -/
theorem eq_key_of_text {key' : Key} (hc : c ∈ Schema.complaints key' value)
    (h : ("/" ++ key.name).toList <+: c.text.toList) : key = key' := by
  obtain ⟨rest, htext⟩ := text_of_mem_complaints hc
  rw [htext, String.toList_append] at h
  exact eq_of_name_prefix (List.cons_prefix_cons.mp h).2

theorem toList_unknownProblem (name : String) :
    (unknownProblem name).toList =
      "must NOT have additional properties (".toList ++ (name.toList ++ ")".toList) := by
  unfold unknownProblem
  rw [String.append_assoc, String.toList_append, String.toList_append]

theorem unknownProblem_injective : Function.Injective unknownProblem := by
  intro a b hab
  have hlist := congrArg String.toList hab
  rw [toList_unknownProblem, toList_unknownProblem] at hlist
  exact String.toList_inj.mp (List.append_cancel_right (List.append_cancel_left hlist))

/-- The problem with an unknown key does not begin as the path of a spot does. -/
theorem head?_unknownProblem (name : String) : (unknownProblem name).toList.head? = some 'm' := by
  have hhead : "must NOT have additional properties (".toList.head? = some 'm' := by decide +kernel
  rw [toList_unknownProblem, List.head?_append, hhead]
  rfl

end Complaint

/-! ## Reports -/

namespace Schema

open Complaint

/-- The text of a complaint about a value is that of no unknown key. -/
theorem text_ne_unknownProblem (hc : c ∈ complaints key value) (name : String) :
    c.text ≠ unknownProblem name := by
  intro heq
  obtain ⟨rest, htext⟩ := text_of_mem_complaints hc
  have hhead := head?_unknownProblem name
  rw [← heq, htext] at hhead
  cases hhead

/-- An unknown key is reported once. -/
theorem count_unknownProblem (hkeys : entries.keys.Nodup) (hmem : name ∈ entries.keys)
    (hunknown : ∀ key : Key, key.name ≠ name) :
    ((entryComplaints entries).map Complaint.text).count (unknownProblem name) = 1 := by
  have hfilter : name ∈ entries.keys.filter fun k => !Key.isKnown k :=
    List.mem_filter.mpr ⟨hmem, not_isKnown_iff.mpr hunknown⟩
  have hnames : (((entries.keys.filter fun k => !Key.isKnown k).map
      fun k => (⟨.whole, .unknownKey k⟩ : Complaint)).map Complaint.text).count
        (unknownProblem name) = 1 := by
    rw [List.map_map]
    exact (List.count_map_of_injective _ unknownProblem unknownProblem_injective name).trans
      (List.count_eq_one_of_mem (hkeys.filter _) hfilter)
  have hvalues : ((Key.all.flatMap fun key =>
      ((entries.get? key.name).map (complaints key)).getD []).map Complaint.text).count
        (unknownProblem name) = 0 := by
    rw [List.count_eq_zero, List.mem_map]
    rintro ⟨c, hc, htext⟩
    obtain ⟨key, -, hc⟩ := List.mem_flatMap.mp hc
    cases hvalue : entries.get? key.name with
    | none => simp [hvalue] at hc
    | some value =>
      rw [hvalue] at hc
      exact text_ne_unknownProblem hc name htext
  rw [entryComplaints, List.map_append, List.count_append, hnames, hvalues]

/-- A key is told in the text of a complaint exactly if its value is not accepted. -/
theorem exists_text_of_key (key : Key) :
    (∃ problem ∈ (entryComplaints entries).map Complaint.text,
      ("/" ++ key.name).toList <+: problem.toList) ↔
    ∃ value, entries.get? key.name = some value ∧ ¬ key.Accepts value := by
  constructor
  · rintro ⟨problem, hproblem, hprefix⟩
    obtain ⟨c, hc, rfl⟩ := List.mem_map.mp hproblem
    rcases mem_entryComplaints.mp hc with ⟨name, -, -, rfl⟩ | ⟨key', value, hvalue, hc⟩
    · have hhead := head?_unknownProblem name
      obtain ⟨rest, hrest⟩ := hprefix
      rw [← text_unknownKey, ← hrest, String.toList_append] at hhead
      cases hhead
    · obtain rfl := eq_key_of_text hc hprefix
      refine ⟨value, hvalue, fun haccepts => ?_⟩
      rw [complaints_eq_nil_iff.mpr haccepts] at hc
      cases hc
  · rintro ⟨value, hvalue, hwrong⟩
    have hne : complaints key value ≠ [] := fun hnil => hwrong (complaints_eq_nil_iff.mp hnil)
    obtain ⟨c, hc⟩ := List.exists_mem_of_ne_nil _ hne
    obtain ⟨rest, htext⟩ := text_of_mem_complaints hc
    refine ⟨c.text, List.mem_map_of_mem (mem_entryComplaints.mpr (.inr ⟨key, value, hvalue, hc⟩)),
      rest, ?_⟩
    rw [htext, String.toList_append]
    rfl

/-- An element is told in the text of a complaint exactly if it is no text, or the empty one. -/
theorem exists_text_of_element (i : Nat) :
    (∃ problem ∈ (entryComplaints entries).map Complaint.text, ∃ words,
      problem = "/buildCommand/" ++ toString i ++ ": " ++ words) ↔
    (Spot.element i).Offends entries := by
  constructor
  · rintro ⟨problem, hproblem, words, rfl⟩
    obtain ⟨c, hc, htext⟩ := List.mem_map.mp hproblem
    rcases mem_entryComplaints.mp hc with ⟨name, -, -, rfl⟩ | ⟨key, value, hvalue, hc⟩
    · have hhead := head?_unknownProblem name
      rw [← text_unknownKey, htext, String.append_assoc, String.append_assoc,
        String.toList_append] at hhead
      cases hhead
    · have hoffends := offends_of_mem_complaints hvalue hc
      rw [text_of_spot (Spot.ne_whole_of_offends hoffends)] at htext
      have hsame : c.spot = .element i := eq_spot_of_text htext
      rwa [hsame] at hoffends
  · rintro ⟨items, item, hitems, hitem, hwrong⟩
    have hne : wrongText item ≠ [] := fun hnil => hwrong (wrongText_eq_nil.mp hnil)
    obtain ⟨wrong, hmem⟩ := List.exists_mem_of_ne_nil _ hne
    have helement : (⟨.element i, wrong⟩ : Complaint) ∈ complaints .buildCommand (.list items) :=
      List.mem_append_right _ (mem_elementComplaints.mpr ⟨i, item, hitem, wrong, hmem, rfl⟩)
    have hc := mem_entryComplaints.mpr (.inr ⟨.buildCommand, .list items, hitems, helement⟩)
    exact ⟨_, List.mem_map_of_mem hc, words wrong, rfl⟩

/-- The complaints about a file report all that is wrong with it. -/
theorem reports_entryComplaints (hkeys : entries.keys.Nodup) :
    Reports entries ((entryComplaints entries).map Complaint.text) where
  unknown := fun _ hmem hunknown => count_unknownProblem hkeys hmem hunknown
  key := exists_text_of_key
  element := exists_text_of_element
  only := by
    intro problem hproblem
    obtain ⟨c, hc, rfl⟩ := List.mem_map.mp hproblem
    rcases mem_entryComplaints.mp hc with ⟨name, hname, hunknown, rfl⟩ | ⟨key, value, hvalue, hc⟩
    · exact .inl ⟨name, hname, hunknown, rfl⟩
    · have hoffends := offends_of_mem_complaints hvalue hc
      have hspot := Spot.ne_whole_of_offends hoffends
      exact .inr ⟨c.spot, words c.wrong, hoffends, text_of_spot hspot⟩

end Schema

/-! ## Files that are accepted -/

/-- The value that some settings have for a key, if they have one. -/
def Settings.given (s : Settings) : Key → Option Value
  | .activeConfig => s.activeConfig.map .string
  | .generalManifest => s.generalManifest.map .string
  | .resolveTarget => s.resolveTarget.map .string
  | .buildCommand => s.buildCommand.map fun command => .list (command.map .string)
  | .toolBinDir => s.toolBinDir.map .string
  | .timeout => s.timeout.map .number
  | .blankLines => s.blankLines.map fun policy => .string policy.name

/-- The entries that a file with these settings has. -/
def Settings.written (s : Settings) : Entries :=
  Key.all.filterMap fun key => (s.given key).map (key.name, ·)

namespace Settings

/-- A text that is given is set. -/
theorem map_string_bind {given : Option Value}
    (h : ∀ value, given = some value → value.IsFilled) :
    (given.bind Value.string?).map Value.string = given := by
  cases given with
  | none => rfl
  | some value =>
    obtain ⟨text, rfl, -⟩ := h value rfl
    rfl

/-- What a file that is accepted sets is what stands in it. -/
theorem given_ofEntries
    (hvalues : ∀ (key : Key) (value : Value), entries.get? key.name = some value →
      key.Accepts value) (key : Key) :
    (ofEntries entries).given key = entries.get? key.name := by
  have hkey := hvalues key
  cases key with
  | activeConfig => exact map_string_bind hkey
  | generalManifest => exact map_string_bind hkey
  | resolveTarget => exact map_string_bind hkey
  | toolBinDir => exact map_string_bind hkey
  | buildCommand =>
    cases hget : entries.get? Key.buildCommand.name with
    | none => simp [ofEntries, given, hget]
    | some value =>
      obtain ⟨command, rfl, -⟩ := hkey value hget
      simp only [ofEntries, given, hget, Option.bind_some, Value.items?, Option.map_some,
        filterMap_string?]
  | timeout =>
    cases hget : entries.get? Key.timeout.name with
    | none => simp [ofEntries, given, hget]
    | some value =>
      obtain ⟨x, rfl, -⟩ := hkey value hget
      simp [ofEntries, given, hget, Value.number?]
  | blankLines =>
    cases hget : entries.get? Key.blankLines.name with
    | none => simp [ofEntries, given, hget]
    | some value =>
      rcases hkey value hget with rfl | rfl <;>
        simp [ofEntries, given, hget, Value.string?, BlankPolicy.ofName?, BlankPolicy.name]

/-- In a mapping each entry is the value at its key. -/
theorem mem_iff_get? (hkeys : entries.keys.Nodup) :
    (name, value) ∈ entries ↔ entries.get? name = some value := by
  induction entries with
  | nil => simp [Entries.get?]
  | cons entry rest ih =>
    obtain ⟨hnot, hrest⟩ := List.nodup_cons.mp hkeys
    have hget : Entries.get? (entry :: rest) name =
        if entry.1 = name then some entry.2 else Entries.get? rest name := by
      by_cases heq : entry.1 = name <;> simp [Entries.get?, heq]
    rw [hget, List.mem_cons, ih hrest]
    by_cases heq : entry.1 = name
    · -- The key stands in front, so it does not stand in the rest.
      have hnone : Entries.get? rest name ≠ some value := by
        intro hsome
        have hmem : name ∈ rest.map Prod.fst := List.mem_map_of_mem ((ih hrest).mpr hsome)
        exact hnot (by rwa [← heq] at hmem)
      rw [if_pos heq, or_iff_left hnone, ← heq, Option.some.injEq, eq_comm]
      exact ⟨fun h => congrArg Prod.snd h, fun h => h ▸ rfl⟩
    · have hne : (name, value) ≠ entry := fun h => heq (congrArg Prod.fst h).symm
      rw [if_neg heq, or_iff_right hne]

theorem mem_written {s : Settings} :
    (name, value) ∈ s.written ↔ ∃ key : Key, key.name = name ∧ s.given key = some value := by
  simp only [Settings.written, List.mem_filterMap, Option.map_eq_some_iff, Prod.mk.injEq]
  constructor
  · rintro ⟨key, -, _, hgiven, hname, rfl⟩
    exact ⟨key, hname, hgiven⟩
  · rintro ⟨key, hname, hgiven⟩
    exact ⟨key, by cases key <;> decide, value, hgiven, hname, rfl⟩

theorem nodup_written (s : Settings) : s.written.Nodup := by
  refine List.Nodup.filterMap ?_ (by decide)
  intro a b entry ha hb
  obtain ⟨_, -, rfl⟩ := Option.map_eq_some_iff.mp ha
  obtain ⟨_, -, hb⟩ := Option.map_eq_some_iff.mp hb
  exact Complaint.name_injective (congrArg Prod.fst hb).symm

/-- A mapping that is in the grammar is made of what it sets. -/
theorem written_ofEntries (hkeys : entries.keys.Nodup)
    (hgrammar : InGrammar (some (.map entries))) : (ofEntries entries).written.Perm entries := by
  cases hgrammar with | map hknown hvalues
  rw [List.perm_ext_iff_of_nodup (nodup_written _) hkeys.of_map]
  rintro ⟨name, value⟩
  simp only [mem_written, mem_iff_get? hkeys, given_ofEntries hvalues]
  constructor
  · rintro ⟨key, rfl, hvalue⟩
    exact hvalue
  · intro hvalue
    have hmem := List.mem_map_of_mem (f := Prod.fst) ((mem_iff_get? hkeys).mpr hvalue)
    obtain ⟨key, hname⟩ := hknown name hmem
    exact ⟨key, hname, hname ▸ hvalue⟩

/--
**A mapping is taken as it is, or all that is wrong with it is reported, and nothing else.**

A mapping in the grammar is accepted, and the settings made of it are its very entries.  Any other
one is refused with its problems, and these are the problems of the error that a file with this
mapping ends in.
-/
theorem ofDocument_reports (hkeys : entries.keys.Nodup) :
    (InGrammar (some (.map entries)) →
      ∃ s, ofDocument (some (.map entries)) = .ok s ∧ s.written.Perm entries) ∧
    (¬ InGrammar (some (.map entries)) →
      ∃ complaints, ofDocument (some (.map entries)) = .error complaints ∧
        Reports entries (complaints.map Complaint.text) ∧
        ∀ path text, Yaml.load (some path) text = .ok (some (.map entries)) →
          parse path text =
            .error (.defect (.configuration path (complaints.map Complaint.text)))) := by
  have hreports := Schema.reports_entryComplaints hkeys
  rw [← Schema.entryComplaints_eq_nil_iff]
  constructor
  · intro hnone
    have hdocument : Schema.documentComplaints (some (.map entries)) = [] := hnone
    refine ⟨ofEntries entries, ?_,
      written_ofEntries hkeys (Schema.entryComplaints_eq_nil_iff.mp hnone)⟩
    rw [ofDocument, hdocument]
    rfl
  · intro hsome
    have hdocument : ofDocument (some (.map entries)) =
        .error (Schema.entryComplaints entries) := by
      rw [ofDocument]
      split
      · next hnone => exact absurd hnone hsome
      · next complaints => rfl
    refine ⟨_, hdocument, hreports, fun path text hload => ?_⟩
    simp only [parse, hload, hdocument]

/-- Entries with an unknown key, a time limit that is a fraction below zero, and a build command
with an empty element and one that is no text. -/
def faultyEntries : Entries :=
  [("activeConfig", .string "Cargo.toml"), ("colour", .string "blue"),
    ("buildCommand", .list [.string "make", .string "", .list []]),
    ("timeoutMs", .number (.ofRatio true 3 2))]

theorem ofDocument_reports_faultyEntries :
    faultyEntries.keys.Nodup ∧ ∃ complaints,
      ofDocument (some (.map faultyEntries)) = .error complaints ∧
      (complaints.map Complaint.text).count (unknownProblem "colour") = 1 ∧
      (∃ problem ∈ complaints.map Complaint.text, "/timeoutMs".toList <+: problem.toList) ∧
      (∀ problem ∈ complaints.map Complaint.text, ¬ "/activeConfig".toList <+: problem.toList) ∧
      ∀ problem ∈ complaints.map Complaint.text, ∀ words,
        problem ≠ "/buildCommand/0: " ++ words := by
  have hkeys : faultyEntries.keys.Nodup := by decide
  have hwrong : ¬ InGrammar (some (.map faultyEntries)) := by
    rw [← Schema.entryComplaints_eq_nil_iff]
    decide +kernel
  obtain ⟨complaints, herror, hreports, -⟩ := (ofDocument_reports hkeys).2 hwrong
  refine ⟨hkeys, complaints, herror, hreports.unknown "colour" (by decide) ?_,
    (hreports.key .timeout).mpr ⟨_, rfl, ?_⟩, ?_, ?_⟩
  · intro key
    cases key <;> decide
  · rw [← Schema.complaints_eq_nil_iff]
    decide +kernel
  · intro problem hproblem hprefix
    obtain ⟨value, hvalue, hnot⟩ := (hreports.key .activeConfig).mp ⟨problem, hproblem, hprefix⟩
    cases hvalue
    exact hnot ⟨"Cargo.toml", rfl, by decide⟩
  · intro problem hproblem words heq
    obtain ⟨items, item, hitems, hitem, hnot⟩ :=
      (hreports.element 0).mp ⟨problem, hproblem, words, heq⟩
    cases hitems
    cases hitem
    exact hnot ⟨"make", rfl, by decide⟩

end Settings

end GoldenRun
