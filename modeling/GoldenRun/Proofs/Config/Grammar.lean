import GoldenRun.Proofs.Config.Reload
import GoldenRun.Proofs.Number.Rational

/-!
# What a configuration file may say

The documents that are accepted, and what they mean, told without the schema that checks them.

* `complaints_eq_nil_iff`: which values a key accepts
* `documentComplaints_eq_nil_iff`: which documents are accepted; those of the grammar, and those
  that are taken for an empty mapping though they are none
* `value_resolve_ofDocument`: the value of each key is that of the document, or else the default
* `parse_accepts_iff`: both, for the text of a file
* `date_is_accepted`: a file that is no mapping and is accepted
-/

namespace GoldenRun

open GoldenRun.Number GoldenRun.Text Yaml

/-! ## The grammar -/

/-- The values that a key accepts. -/
def Key.Accepts (key : Key) (value : Value) : Prop :=
  match key with
  | .buildCommand => ∃ command : List String,
    value = .list (command.map .string) ∧ command ≠ [] ∧ ∀ text ∈ command, text ≠ ""
  | .timeout => ∃ x : Binary64, value = .number x ∧ ∃ n : ℕ, x.toRat? = some (n : ℚ)
  | .blankLines => value = .string "ignore" ∨ value = .string "reject"
  | _ => ∃ text, value = .string text ∧ text ≠ ""

/-- The documents that a configuration file should be. -/
inductive InGrammar : Option Value → Prop where
  /-- Nothing. -/
  | nothing : InGrammar none
  /-- The empty value. -/
  | null : InGrammar (some .null)
  /-- A mapping whose keys are known, each with a value that it accepts. -/
  | map {entries : Entries} (hkeys : ∀ name ∈ entries.keys, ∃ key : Key, key.name = name)
    (hvalues : ∀ (key : Key) (value : Value), entries.get? key.name = some value →
      key.Accepts value) : InGrammar (some (.map entries))

/-- A document that is no mapping, but has the entries of an empty one. -/
inductive IsHollow : Option Value → Prop where
  /-- A point in time. -/
  | date (t : Instant) : IsHollow (some (.date t))
  /-- No bytes. -/
  | bytes : IsHollow (some (.binary []))

namespace Schema

variable {document : Option Value} {entries : Entries} {key : Key} {value : Value}

theorem wrongPolicy_eq_nil :
    wrongPolicy value = [] ↔ value = .string "ignore" ∨ value = .string "reject" := by
  cases value with
  | string name =>
    by_cases hignore : name = "ignore"
    · exact iff_of_true (hignore ▸ rfl) (.inl (congrArg _ hignore))
    by_cases hreject : name = "reject"
    · exact iff_of_true (hreject ▸ rfl) (.inr (congrArg _ hreject))
    have hnone : BlankPolicy.ofName? name = none := by
      simp [BlankPolicy.ofName?, BlankPolicy.name, Ne.symm hignore, Ne.symm hreject]
    simp [wrongPolicy, hnone, hignore, hreject]
  | _ => simp [wrongPolicy]

/-- There is no complaint about a value exactly if its key accepts it. -/
theorem complaints_eq_nil_iff : complaints key value = [] ↔ key.Accepts value := by
  cases key with
  | buildCommand => exact complaints_buildCommand_eq_nil
  | timeout =>
    rw [complaints, List.map_eq_nil_iff, wrongLimit_eq_nil]
    simp only [Key.Accepts, Binary64.natural_iff]
  | blankLines =>
    rw [complaints, List.map_eq_nil_iff, wrongPolicy_eq_nil]
    rfl
  | _ => exact List.map_eq_nil_iff.trans wrongText_eq_nil

theorem isKnown_iff {name : String} : Key.isKnown name = true ↔ ∃ key : Key, key.name = name := by
  rw [Key.isKnown, List.any_eq_true]
  constructor
  · rintro ⟨key, -, hname⟩
    exact ⟨key, of_decide_eq_true hname⟩
  · rintro ⟨key, hname⟩
    have hkey : key ∈ Key.all := by cases key <;> decide
    exact ⟨key, hkey, decide_eq_true hname⟩

theorem entryComplaints_eq_nil_iff :
    entryComplaints entries = [] ↔ InGrammar (some (.map entries)) := by
  constructor
  · intro h
    refine .map (fun name hname => ?_) fun key value hvalue => ?_
    · -- An unknown key would be complained of.
      rw [entryComplaints, List.append_eq_nil_iff, List.map_eq_nil_iff,
        List.filter_eq_nil_iff] at h
      have hknown := h.1 name hname
      rw [Bool.not_eq_true, Bool.not_eq_false'] at hknown
      exact isKnown_iff.mp hknown
    · exact complaints_eq_nil_iff.mp (complaints_of_entries h key hvalue)
  · intro h
    cases h with | map hkeys hvalues
    rw [entryComplaints, List.append_eq_nil_iff, List.map_eq_nil_iff, List.filter_eq_nil_iff,
      List.flatMap_eq_nil_iff]
    constructor
    · intro name hname
      simp [isKnown_iff.mpr (hkeys name hname)]
    · intro key _
      cases hget : entries.get? key.name with
      | none => rfl
      | some value => exact complaints_eq_nil_iff.mpr (hvalues key value hget)

/-- Bytes are refused, if there are any: no number is a known key. -/
theorem binary_not_inGrammar (b : UInt8) (rest : Bytes) {entries : Entries}
    (hentries : (Value.binary (b :: rest)).properties? = some entries) :
    ¬ InGrammar (some (.map entries)) := by
  obtain rfl := Option.some.inj hentries
  intro h
  cases h with | map hkeys hvalues
  obtain ⟨key, hname⟩ := hkeys "0" (by rw [List.zipIdx_cons]; exact List.mem_cons_self)
  cases key <;> exact absurd hname (by decide)

/-- **The documents that are accepted are those of the grammar, and the hollow ones.** -/
theorem documentComplaints_eq_nil_iff :
    documentComplaints document = [] ↔ InGrammar document ∨ IsHollow document := by
  have hother : ∀ value : Value, value.properties? = none → value ≠ .null →
      (documentComplaints (some value) = [] ↔
        InGrammar (some value) ∨ IsHollow (some value)) := by
    intro value hnone hnull
    have hcomplaint : documentComplaints (some value) = [⟨.whole, .notObject⟩] := by
      cases value <;> simp_all [documentComplaints]
    rw [hcomplaint]
    constructor
    · intro h
      cases h
    · rintro (hgrammar | hhollow)
      · cases hgrammar <;> simp_all [Value.properties?]
      · cases hhollow <;> simp_all [Value.properties?]
  cases document with
  | none => exact ⟨fun _ => .inl .nothing, fun _ => rfl⟩
  | some value =>
    cases value with
    | null => exact ⟨fun _ => .inl .null, fun _ => rfl⟩
    | map entries =>
      have hhollow : ¬ IsHollow (some (.map entries)) := by rintro ⟨⟩
      rw [or_iff_left hhollow]
      exact entryComplaints_eq_nil_iff
    | date t => exact ⟨fun _ => .inr (.date t), fun _ => rfl⟩
    | binary bytes =>
      cases bytes with
      | nil => exact ⟨fun _ => .inr .bytes, fun _ => rfl⟩
      | cons b rest =>
        constructor
        · intro h
          exact (binary_not_inGrammar b rest rfl (entryComplaints_eq_nil_iff.mp h)).elim
        · rintro (hgrammar | hhollow)
          · cases hgrammar
          · cases hhollow
    | _ => exact hother _ rfl (by simp)

end Schema

/-! ## The meaning -/

/-- The value that a document has for a key. -/
def Key.given? (key : Key) : Option Value → Option Value
  | some (.map entries) => Entries.get? entries key.name
  | _ => none

/-- A value as it is used: in the directory of tools the home directory is filled in. -/
def Key.filled (key : Key) (home : String) (value : Value) : Value :=
  match key, value with
  | .toolBinDir, .string directory => .string (Path.expandHome home directory)
  | _, value => value

/-- The value of a key in a configuration. -/
def Config.value (c : Config) : Key → Value
  | .activeConfig => .string c.activeConfig
  | .generalManifest => .string c.generalManifest
  | .resolveTarget => .string c.resolveTarget
  | .buildCommand => .list (c.buildCommand.map .string)
  | .toolBinDir => .string c.toolBinDir
  | .timeout => .number c.timeout
  | .blankLines => .string c.blankLines.name

namespace Settings

variable {document : Option Value} {entries : Entries} {s : Settings} {path text : String}

/-- A text that is given is taken, and otherwise the default is. -/
theorem string_getD {given : Option Value} {default : String}
    (h : ∀ value, given = some value → ∃ text, value = .string text ∧ text ≠ "") :
    Value.string ((given.bind Value.string?).getD default) = given.getD (.string default) := by
  cases given with
  | none => rfl
  | some value =>
    obtain ⟨text, rfl, -⟩ := h value rfl
    rfl

/-- The value of each key is that of the entries, or else the default. -/
theorem value_resolve_ofEntries
    (hvalues : ∀ (key : Key) (value : Value), entries.get? key.name = some value →
      key.Accepts value) (home : String) (key : Key) :
    ((ofEntries entries).resolve home).value key =
      key.filled home ((entries.get? key.name).getD (Config.default.value key)) := by
  have hkey := hvalues key
  cases key with
  | activeConfig => exact string_getD hkey
  | generalManifest => exact string_getD hkey
  | resolveTarget => exact string_getD hkey
  | toolBinDir => exact congrArg (Key.filled .toolBinDir home) (string_getD hkey)
  | buildCommand =>
    cases hget : entries.get? Key.buildCommand.name with
    | none => simp [ofEntries, resolve, Config.overlay, Config.value, Key.filled, hget]
    | some value =>
      obtain ⟨command, rfl, -⟩ := hkey value hget
      simp only [ofEntries, resolve, Config.overlay, Config.value, Key.filled, hget,
        Option.bind_some, Value.items?, Option.map_some, filterMap_string?, Option.getD_some]
  | timeout =>
    cases hget : entries.get? Key.timeout.name with
    | none => simp [ofEntries, resolve, Config.overlay, Config.value, Key.filled, hget]
    | some value =>
      obtain ⟨x, rfl, -⟩ := hkey value hget
      simp [ofEntries, resolve, Config.overlay, Config.value, Key.filled, hget, Value.number?]
  | blankLines =>
    cases hget : entries.get? Key.blankLines.name with
    | none => simp [ofEntries, resolve, Config.overlay, Config.value, Key.filled, hget]
    | some value =>
      rcases hkey value hget with rfl | rfl <;>
        simp [ofEntries, resolve, Config.overlay, Config.value, Key.filled, hget, Value.string?,
          BlankPolicy.ofName?, BlankPolicy.name]

/-- A document is accepted, or it is refused with a complaint. -/
theorem ofDocument_cases (document : Option Value) :
    ((InGrammar document ∨ IsHollow document) ∧ ∃ s, ofDocument document = .ok s) ∨
      (¬ (InGrammar document ∨ IsHollow document) ∧
        ∃ complaint more, ofDocument document = .error (complaint :: more)) := by
  rw [← Schema.documentComplaints_eq_nil_iff]
  unfold ofDocument
  cases Schema.documentComplaints document with
  | nil => exact .inl ⟨rfl, _, rfl⟩
  | cons complaint more => exact .inr ⟨List.cons_ne_nil _ _, complaint, more, rfl⟩

/-- The value of each key is that of the document, or else the default. -/
theorem value_resolve_ofDocument (h : ofDocument document = .ok s) (home : String) (key : Key) :
    (s.resolve home).value key =
      key.filled home ((key.given? document).getD (Config.default.value key)) := by
  unfold ofDocument at h
  split at h
  · next hnone =>
    cases h
    -- A document that is no mapping has no entries when it is accepted.
    rcases Schema.documentComplaints_eq_nil_iff.mp hnone with hgrammar | hhollow
    · cases hgrammar with
      | nothing => exact value_resolve_ofEntries (fun _ _ hvalue => by cases hvalue) home key
      | null => exact value_resolve_ofEntries (fun _ _ hvalue => by cases hvalue) home key
      | map _ hvalues => exact value_resolve_ofEntries hvalues home key
    · cases hhollow with
      | date t => exact value_resolve_ofEntries (fun _ _ hvalue => by cases hvalue) home key
      | bytes => exact value_resolve_ofEntries (fun _ _ hvalue => by cases hvalue) home key
  · cases h

/--
**A configuration file is accepted exactly if its document is in the grammar or hollow.**

Any other document is refused, with at least one problem.  When a document is accepted, the value
of each key that it has is taken from it, and that of each other key is the default.
-/
theorem parse_accepts_iff (hload : Yaml.load (some path) text = .ok document) :
    ((∃ s, parse path text = .ok s) ↔ InGrammar document ∨ IsHollow document) ∧
    ((¬ ∃ s, parse path text = .ok s) → ∃ problem problems,
      parse path text = .error (.defect (.configuration path (problem :: problems)))) ∧
    ∀ s, parse path text = .ok s → ∀ home key, (s.resolve home).value key =
      key.filled home ((key.given? document).getD (Config.default.value key)) := by
  rcases ofDocument_cases document with ⟨haccepted, s, hs⟩ | ⟨hrefused, complaint, more, herror⟩
  · have hparse : parse path text = .ok s := by simp only [parse, hload, hs]
    rw [hparse]
    refine ⟨iff_of_true ⟨s, rfl⟩ haccepted, fun hno => (hno ⟨s, rfl⟩).elim, fun s' hs' => ?_⟩
    cases hs'
    exact value_resolve_ofDocument hs
  · have hparse : parse path text = .error (.defect (.configuration path
        ((complaint :: more).map Complaint.text))) := by simp only [parse, hload, herror]
    have hno : ¬ ∃ s, parse path text = .ok s := by simp [hparse]
    refine ⟨iff_of_false hno hrefused, fun _ => ⟨_, _, hparse⟩, fun s hs => (hno ⟨s, hs⟩).elim⟩

theorem parse_accepts_iff_quotedConfig :
    Yaml.load (some "golden-trace.yml") (dump (.map quotedConfig.entries)) =
        .ok (some (.map quotedConfig.entries)) ∧
      ∃ s, parse "golden-trace.yml" (dump (.map quotedConfig.entries)) = .ok s ∧
        (s.resolve "/home/dev").value .resolveTarget = .string "no: #x\n" ∧
        (s.resolve "/home/dev").value .timeout = .number (.zero false) := by
  have hsound : quotedConfig.Sound "/home/dev" :=
    ⟨by decide, ⟨by decide, by decide⟩, ⟨by decide +kernel, by decide⟩, by decide +kernel⟩
  have hload := load_dump (some "golden-trace.yml") hsound.writable
    quotedConfig.nodup_keys_entries (List.cons_ne_nil _ _)
  obtain ⟨haccepts, -, hvalue⟩ := parse_accepts_iff hload
  have hgrammar : InGrammar (some (.map quotedConfig.entries)) :=
    Schema.entryComplaints_eq_nil_iff.mp (by decide +kernel)
  obtain ⟨s, hs⟩ := haccepts.mpr (.inl hgrammar)
  exact ⟨hload, s, hs, hvalue s hs _ _, hvalue s hs _ _⟩

/-- The point in time that a document is. -/
def instant? : Option Value → Option Instant
  | some (.date t) => some t
  | _ => none

theorem eq_date_of_instant? {t : Instant} (h : instant? document = some t) :
    document = some (.date t) := by
  unfold instant? at h
  split at h
  · rw [Option.some.inj h]
  · cases h

/-- **A date is accepted for a configuration**, though it is no mapping, and sets nothing. -/
theorem date_is_accepted :
    (∃ t, Yaml.load (some "/tree/golden-trace.yml") "2020-01-01\n" = .ok (some (.date t)) ∧
        ¬ InGrammar (some (.date t))) ∧
      parse "/tree/golden-trace.yml" "2020-01-01\n" = .ok {} ∧
      Config.load (configTree "2020-01-01\n") "/tree" none = .ok (resolve "/home/dev" {}) := by
  have hdate : ((Yaml.load (some "/tree/golden-trace.yml") "2020-01-01\n").toOption.bind
      instant?).isSome = true := by decide +kernel
  refine ⟨?_, by decide +kernel, by decide +kernel⟩
  obtain ⟨t, ht⟩ := Option.isSome_iff_exists.mp hdate
  obtain ⟨document, hdocument, hinstant⟩ := Option.bind_eq_some_iff.mp ht
  obtain rfl := eq_date_of_instant? hinstant
  refine ⟨t, ?_, fun hgrammar => by cases hgrammar⟩
  cases hload : Yaml.load (some "/tree/golden-trace.yml") "2020-01-01\n" with
  | error error =>
    rw [hload] at hdocument
    cases hdocument
  | ok document =>
    rw [hload] at hdocument
    exact congrArg Except.ok (Option.some.inj hdocument)

end Settings

end GoldenRun
