import GoldenRun.Config.Load
import GoldenRun.Proofs.Path
import GoldenRun.Proofs.Template.Variable
import GoldenRun.Proofs.Text.Utf8
import GoldenRun.Proofs.Yaml.Roundtrip

/-!
# A configuration that is written is loaded again

* `Config.Sound`: what holds of a configuration that was loaded
* `Config.load_eq_ok`: where a loaded configuration comes from
* `Settings.ofDocument_entries`: the entries of a sound configuration make all its settings
* `Config.load_of_written`: a configuration that is written to a file is loaded from it again
-/

namespace GoldenRun

open GoldenRun.Number GoldenRun.Text Yaml

variable {w : Workspace} {home root path : String} {named : Option String} {c : Config}
  {s : Settings} {entries : Entries}

/-! ## Values without complaints -/

namespace Schema

/-- In a file without complaints there is none about the value of a key. -/
theorem complaints_of_entries (h : entryComplaints entries = []) (key : Key) {value : Value}
    (hvalue : entries.get? key.name = some value) : complaints key value = [] := by
  rw [entryComplaints, List.append_eq_nil_iff, List.flatMap_eq_nil_iff] at h
  have hkey : key ∈ Key.all := by cases key <;> decide
  have hnone := h.2 key hkey
  rwa [hvalue] at hnone

theorem wrongText_eq_nil {value : Value} :
    wrongText value = [] ↔ ∃ text, value = .string text ∧ text ≠ "" := by
  cases value with
  | string text =>
    rw [wrongText]
    split
    · next hempty => simp [hempty]
    · next hempty => simp [hempty]
  | _ => simp [wrongText]

theorem wrongLimit_eq_nil {value : Value} :
    wrongLimit value = [] ↔
      ∃ x, value = .number x ∧ x.isWhole = true ∧ x.isNegative = false := by
  cases value with
  | number x =>
    have hfinite : x.isWhole = true → x.isFinite = true := by
      cases x <;> simp [Binary64.isWhole, Binary64.wholeMagnitude?, Binary64.isFinite]
    cases hwhole : x.isWhole with
    | false => simp [wrongLimit, hwhole]
    | true => cases hsign : x.isNegative <;> simp [wrongLimit, hwhole, hsign, hfinite hwhole]
  | _ => simp [wrongLimit]

theorem elementComplaints_eq_nil {items : List Value} :
    elementComplaints items = [] ↔ ∀ item ∈ items, wrongText item = [] := by
  rw [elementComplaints, List.flatMap_eq_nil_iff]
  constructor
  · intro h item hitem
    obtain ⟨i, hi⟩ := List.mem_iff_getElem?.mp hitem
    exact List.map_eq_nil_iff.mp (h (item, i) (List.mk_mem_zipIdx_iff_getElem?.mpr hi))
  · rintro h ⟨item, i⟩ hmem
    exact List.map_eq_nil_iff.mpr
      (h item (List.mem_of_getElem? (List.mk_mem_zipIdx_iff_getElem?.mp hmem)))

/-- A build command without complaints is a sequence of texts, and neither it nor any of them is
empty. -/
theorem complaints_buildCommand_eq_nil {value : Value} :
    complaints .buildCommand value = [] ↔ ∃ command : List String,
      value = .list (command.map .string) ∧ command ≠ [] ∧ ∀ text ∈ command, text ≠ "" := by
  have hitems : ∀ items : List Value, (∀ item ∈ items, wrongText item = []) →
      ∃ command : List String, items = command.map .string ∧ ∀ text ∈ command, text ≠ "" := by
    intro items
    induction items with
    | nil => exact fun _ => ⟨[], rfl, by simp⟩
    | cons item items ih =>
      intro h
      obtain ⟨hitem, hrest⟩ := List.forall_mem_cons.mp h
      obtain ⟨text, rfl, htext⟩ := wrongText_eq_nil.mp hitem
      obtain ⟨command, rfl, hcommand⟩ := ih hrest
      exact ⟨text :: command, rfl, List.forall_mem_cons.mpr ⟨htext, hcommand⟩⟩
  constructor
  · intro h
    cases value with
    | list items =>
      simp only [complaints, List.append_eq_nil_iff, elementComplaints_eq_nil] at h
      obtain ⟨command, rfl, hcommand⟩ := hitems items h.2
      refine ⟨command, rfl, ?_, hcommand⟩
      rintro rfl
      cases h.1
    | _ => cases h
  · rintro ⟨command, rfl, hne, hcommand⟩
    simp only [complaints, List.append_eq_nil_iff, elementComplaints_eq_nil]
    refine ⟨if_neg (by simpa using hne), fun item hitem => ?_⟩
    obtain ⟨text, htext, rfl⟩ := List.mem_map.mp hitem
    exact wrongText_eq_nil.mpr ⟨text, rfl, hcommand text htext⟩

end Schema

/-! ## Settings -/

theorem filterMap_string? (texts : List String) :
    (texts.map Value.string).filterMap Value.string? = texts := by
  rw [List.filterMap_map]
  exact List.filterMap_some

/-- What holds of the settings that a file makes. -/
structure Settings.Sound (s : Settings) : Prop where
  /-- No text is empty. -/
  texts : some "" ∉ [s.activeConfig, s.generalManifest, s.resolveTarget, s.toolBinDir]
  /-- The build command is not empty, and neither are its elements. -/
  command : ∀ command, s.buildCommand = some command → command ≠ [] ∧ ∀ text ∈ command, text ≠ ""
  /-- The time limit is a whole number that is not negative. -/
  timeout : ∀ x, s.timeout = some x → x.isWhole = true ∧ x.isNegative = false

theorem Settings.sound_empty : Settings.Sound {} where
  texts := by simp
  command := by simp
  timeout := by simp

theorem Settings.sound_ofEntries (h : Schema.entryComplaints entries = []) :
    (Settings.ofEntries entries).Sound where
  texts := by
    have htext : ∀ key : Key, (∀ value, Schema.complaints key value =
        (Schema.wrongText value).map (⟨.key key, ·⟩)) →
          some "" ≠ (entries.get? key.name).bind Value.string? := by
      intro key hkey hnone
      obtain ⟨value, hvalue, hstring⟩ := Option.bind_eq_some_iff.mp hnone.symm
      have hwrong := Schema.complaints_of_entries h key hvalue
      rw [hkey, List.map_eq_nil_iff, Schema.wrongText_eq_nil] at hwrong
      obtain ⟨text, rfl, hne⟩ := hwrong
      exact hne (Option.some.inj hstring)
    simp only [List.mem_cons, List.not_mem_nil, or_false, not_or]
    exact ⟨htext _ fun _ => rfl, htext _ fun _ => rfl, htext _ fun _ => rfl, htext _ fun _ => rfl⟩
  command := by
    intro command hcommand
    obtain ⟨items, hitems, hstrings⟩ := Option.map_eq_some_iff.mp hcommand
    obtain ⟨value, hvalue, hlist⟩ := Option.bind_eq_some_iff.mp hitems
    obtain ⟨texts, rfl, hne, htexts⟩ :=
      Schema.complaints_buildCommand_eq_nil.mp (Schema.complaints_of_entries h _ hvalue)
    obtain rfl : texts.map Value.string = items := Option.some.inj hlist
    rw [filterMap_string?] at hstrings
    exact hstrings ▸ ⟨hne, htexts⟩
  timeout := by
    intro x hx
    obtain ⟨value, hvalue, hnumber⟩ := Option.bind_eq_some_iff.mp hx
    have hwrong := Schema.complaints_of_entries h .timeout hvalue
    rw [Schema.complaints, List.map_eq_nil_iff, Schema.wrongLimit_eq_nil] at hwrong
    obtain ⟨y, rfl, hy⟩ := hwrong
    exact Option.some.inj hnumber ▸ hy

theorem Settings.sound_ofDocument {document : Option Value}
    (h : Settings.ofDocument document = .ok s) : s.Sound := by
  rw [Settings.ofDocument] at h
  split at h
  · next hcomplaints =>
    cases h
    refine Settings.sound_ofEntries ?_
    unfold Schema.documentComplaints at hcomplaints
    split at hcomplaints
    · rfl
    · rfl
    · next value _ =>
      split at hcomplaints
      · next entries hentries =>
        rw [Option.bind_some, hentries]
        exact hcomplaints
      · cases hcomplaints
  · cases h

/-! ## Configurations -/

/-- What holds of a configuration that was loaded. -/
structure Config.Sound (home : String) (c : Config) : Prop where
  /-- No text is empty. -/
  texts : "" ∉ [c.activeConfig, c.generalManifest, c.resolveTarget, c.toolBinDir]
  /-- The build command is not empty, and neither are its elements. -/
  command : c.buildCommand ≠ [] ∧ ∀ text ∈ c.buildCommand, text ≠ ""
  /-- The time limit is a whole number that is not negative. -/
  timeout : c.timeout.isWhole = true ∧ c.timeout.isNegative = false
  /-- The home directory is filled in. -/
  home : Path.expandHome home c.toolBinDir = c.toolBinDir

theorem Settings.Sound.command_resolve (h : s.Sound) (home : String) :
    (s.resolve home).buildCommand ≠ [] ∧ ∀ text ∈ (s.resolve home).buildCommand, text ≠ "" := by
  have hresolved : (s.resolve home).buildCommand =
      s.buildCommand.getD Config.default.buildCommand := rfl
  rw [hresolved]
  cases hcommand : s.buildCommand with
  | none => exact ⟨by decide, by decide⟩
  | some command => exact h.command command hcommand

/-- What settings mean is sound, as the defaults are. -/
theorem Settings.Sound.resolve (h : s.Sound) (hhome : Path.isAbsolute home = true) :
    (s.resolve home).Sound home := by
  have htext : ∀ (text : Option String) (default : String), default ≠ "" → some "" ≠ text →
      text.getD default ≠ "" := by
    rintro (_ | text) default hdefault htext
    · exact hdefault
    · exact fun hempty => htext (congrArg some hempty.symm)
  have htexts := h.texts
  simp only [List.mem_cons, List.not_mem_nil, or_false, not_or] at htexts
  obtain ⟨hactive, hgeneral, htarget, htool⟩ := htexts
  refine ⟨?_, h.command_resolve home, ?_, Path.expandHome_expandHome hhome _⟩
  · simp only [List.mem_cons, List.not_mem_nil, or_false, not_or]
    exact ⟨(htext _ _ (by decide) hactive).symm, (htext _ _ (by decide) hgeneral).symm,
      (htext _ _ (by decide) htarget).symm,
      (Path.expandHome_ne_empty hhome (htext _ _ (by decide) htool)).symm⟩
  · have hresolved : (s.resolve home).timeout = s.timeout.getD Config.default.timeout := rfl
    rw [hresolved]
    cases htimeout : s.timeout with
    | none => exact ⟨by decide +kernel, by decide⟩
    | some x => exact h.timeout x htimeout

/-- The settings that a configuration is. -/
def Config.settings (c : Config) : Settings where
  activeConfig := c.activeConfig
  generalManifest := c.generalManifest
  resolveTarget := c.resolveTarget
  buildCommand := c.buildCommand
  toolBinDir := c.toolBinDir
  timeout := c.timeout
  blankLines := c.blankLines

theorem BlankPolicy.ofName?_name (policy : BlankPolicy) : ofName? policy.name = some policy := by
  cases policy <;> decide

theorem Settings.ofEntries_entries (c : Config) : Settings.ofEntries c.entries = c.settings := by
  have hread : Settings.ofEntries c.entries =
      { c.settings with
        buildCommand := some ((c.buildCommand.map Value.string).filterMap Value.string?)
        blankLines := BlankPolicy.ofName? c.blankLines.name } := rfl
  rw [hread, filterMap_string?, BlankPolicy.ofName?_name]
  rfl

/-- The entries of a sound configuration make all its settings. -/
theorem Settings.ofDocument_entries (h : c.Sound home) :
    Settings.ofDocument (some (.map c.entries)) = .ok c.settings := by
  have htexts := h.texts
  simp only [List.mem_cons, List.not_mem_nil, or_false, not_or] at htexts
  obtain ⟨hactive, hgeneral, htarget, htool⟩ := htexts
  have htext : ∀ text, "" ≠ text → Schema.wrongText (.string text) = [] := fun text htext =>
    Schema.wrongText_eq_nil.mpr ⟨text, rfl, htext.symm⟩
  have hget : ∀ key ∈ Key.all, ∃ value, c.entries.get? key.name = some value ∧
      Schema.complaints key value = [] := by
    intro key _
    cases key with
    | activeConfig => exact ⟨_, rfl, List.map_eq_nil_iff.mpr (htext _ hactive)⟩
    | generalManifest => exact ⟨_, rfl, List.map_eq_nil_iff.mpr (htext _ hgeneral)⟩
    | resolveTarget => exact ⟨_, rfl, List.map_eq_nil_iff.mpr (htext _ htarget)⟩
    | buildCommand =>
      exact ⟨_, rfl, Schema.complaints_buildCommand_eq_nil.mpr ⟨_, rfl, h.command⟩⟩
    | toolBinDir => exact ⟨_, rfl, List.map_eq_nil_iff.mpr (htext _ htool)⟩
    | timeout =>
      exact ⟨_, rfl, List.map_eq_nil_iff.mpr (Schema.wrongLimit_eq_nil.mpr ⟨_, rfl, h.timeout⟩)⟩
    | blankLines =>
      refine ⟨_, rfl, List.map_eq_nil_iff.mpr ?_⟩
      rw [Schema.wrongPolicy, BlankPolicy.ofName?_name]
      rfl
  have hcomplaints : Schema.entryComplaints c.entries = [] := by
    rw [Schema.entryComplaints, List.append_eq_nil_iff, List.flatMap_eq_nil_iff]
    refine ⟨rfl, fun key hkey => ?_⟩
    obtain ⟨value, hvalue, hnone⟩ := hget key hkey
    rw [hvalue, Option.map_some, Option.getD_some, hnone]
  have hdocument : Schema.documentComplaints (some (.map c.entries)) = [] := hcomplaints
  rw [Settings.ofDocument, hdocument, ← Settings.ofEntries_entries]
  rfl

/-- A sound configuration is what its own settings mean. -/
theorem Config.resolve_settings (h : c.Sound home) : c.settings.resolve home = c := by
  have hsame : Config.default.overlay c.settings = c := rfl
  rw [Settings.resolve, hsame]
  simp only [h.home]

/-! ## Loading -/

/-- Every element of the default build command can be filled in. -/
theorem commandFaults_default (root : String) :
    commandFaults Config.default.buildCommand (Config.default.checkContext root) = [] := by
  have hplain : ∀ template ∈ Config.default.buildCommand,
      Template.isPlain ["binary"] template = true := by decide +kernel
  have hname : ∀ name ∈ ["binary"], ∃ text,
      Template.Fields.get? (Config.default.checkContext root).fields name =
        some (.string text) := by
    rintro name hname
    obtain rfl := List.mem_singleton.mp hname
    exact ⟨_, rfl⟩
  rw [commandFaults, List.filterMap_eq_nil_iff]
  rintro ⟨template, i⟩ hmem
  obtain ⟨text, htext⟩ := Template.render_of_isPlain
    (hplain template (List.mem_of_getElem? (List.mk_mem_zipIdx_iff_getElem?.mp hmem))) hname
  simp only [renderElement, htext]

theorem Config.checkCommand_eq_ok {c : Config} (path root : String) :
    c.checkCommand path root = .ok () ↔
      commandFaults c.buildCommand (c.checkContext root) = [] := by
  rw [checkCommand]
  cases commandFaults c.buildCommand (c.checkContext root) <;> simp

/-- What is loaded is what some settings mean, and its build command can be filled in. -/
theorem Config.load_eq_ok (h : Config.load w root named = .ok c) :
    (∃ s : Settings, s.Sound ∧ c = s.resolve w.home) ∧
      commandFaults c.buildCommand (c.checkContext root) = [] := by
  unfold Config.load at h
  dsimp only at h
  split at h
  · split at h
    · cases h
    · next text htext =>
      unfold Config.parse at h
      split at h
      · cases h
      · next s hsettings =>
        dsimp only at h
        split at h
        · next hcheck =>
          cases h
          refine ⟨⟨s, ?_, rfl⟩, (Config.checkCommand_eq_ok _ root).mp hcheck⟩
          unfold Settings.parse at hsettings
          split at hsettings
          · cases hsettings
          · split at hsettings
            · next hdocument =>
              cases hsettings
              exact Settings.sound_ofDocument hdocument
            · cases hsettings
        · cases h
  · split at h
    · cases h
    · cases h
      exact ⟨⟨{}, Settings.sound_empty, rfl⟩, commandFaults_default root⟩

/-- A key of a configuration is written as it is. -/
theorem isKey_name (key : Key) : IsKey key.name where
  text := by cases key <;> decide +kernel
  isPlainText := by cases key <;> decide +kernel
  clear := by cases key <;> decide +kernel
  point := by cases key <;> decide +kernel
  short := by cases key <;> decide +kernel
  index := by cases key <;> decide +kernel

/-- The entries of a sound configuration can be written. -/
theorem Config.Sound.writable (h : c.Sound home) : ∀ e ∈ c.entries, WritableEntry e := by
  obtain ⟨text, texts, hcommand⟩ := List.exists_cons_of_ne_nil h.command.1
  intro e he
  simp only [Config.entries, List.mem_cons, List.not_mem_nil, or_false] at he
  rcases he with rfl | rfl | rfl | rfl | rfl | rfl | rfl
  · exact ⟨isKey_name .activeConfig, .text _⟩
  · exact ⟨isKey_name .generalManifest, .text _⟩
  · exact ⟨isKey_name .resolveTarget, .text _⟩
  · refine ⟨isKey_name .buildCommand, ?_⟩
    rw [hcommand]
    exact .texts text texts
  · exact ⟨isKey_name .toolBinDir, .text _⟩
  · exact ⟨isKey_name .timeout, .number _ h.timeout.1 h.timeout.2⟩
  · exact ⟨isKey_name .blankLines, .text _⟩

theorem Config.nodup_keys_entries (c : Config) : c.entries.keys.Nodup := by
  show (Key.all.map Key.name).Nodup
  decide

theorem Disk.hasEntry_of_read {disk : Disk} {cwd : Location} {bytes : Bytes}
    (h : disk.read cwd path = .ok bytes) : disk.hasEntry cwd path = true := by
  rw [Disk.read] at h
  split at h
  · cases h
  · next hnul =>
    split at h
    · next hfind => simp [Disk.hasEntry, hnul, hfind, Except.toOption]
    · cases h
    · cases h

/-- **A configuration that is written to a file is loaded from it again.** -/
theorem Config.load_of_written {w' : Workspace} (hload : Config.load w root named = .ok c)
    (habsolute : Path.isAbsolute w.home = true) (hhome : w'.home = w.home)
    (hfile : w'.disk.read w'.cwd (configPath w' root (some path)) =
      .ok (encode (dump (.map c.entries)))) :
    Config.load w' root (some path) = .ok c := by
  obtain ⟨⟨s, hs, hresolve⟩, hfaults⟩ := Config.load_eq_ok hload
  have hsound : c.Sound w.home := hresolve ▸ hs.resolve habsolute
  have hentry := Disk.hasEntry_of_read hfile
  have htext : w'.disk.readText w'.cwd (configPath w' root (some path)) =
      .ok (dump (.map c.entries)) := by
    rw [Disk.readText, hfile]
    exact congrArg Except.ok (decode_encode _)
  have hparse : Settings.parse (configPath w' root (some path)) (dump (.map c.entries)) =
      .ok c.settings := by
    have hne : c.entries ≠ [] := List.cons_ne_nil _ _
    rw [Settings.parse, Yaml.load_dump _ hsound.writable c.nodup_keys_entries hne]
    simp only [Settings.ofDocument_entries hsound]
  have hcheck := (Config.checkCommand_eq_ok (configPath w' root (some path)) root).mpr hfaults
  rw [Config.load]
  simp only [hentry, htext, if_true]
  rw [Config.parse, hparse, hhome]
  simp only [Config.resolve_settings hsound, hcheck]

/-- A fixture tree with a configuration file. -/
def configTree (text : String) : Workspace where
  disk := ⟨[(["tree"], .directory), (["tree", "golden-trace.yml"], .file (encode text) false)]⟩
  cwd := ["tree"]
  env := [("HOME", "/home/dev")]

theorem read_configTree (text : String) :
    (configTree text).disk.read ["tree"] "/tree/golden-trace.yml" = .ok (encode text) := rfl

theorem home_configTree (text : String) : (configTree text).home = "/home/dev" := rfl

/-- A configuration in which a text must be quoted. -/
def quotedConfig : Config :=
  { Config.default with resolveTarget := "no: #x\n", toolBinDir := "/home/dev/.cargo/bin" }

theorem Config.load_of_written_quotedConfig :
    Config.load (configTree "resolveTarget: \"no: #x\\n\"\n") "/tree" none = .ok quotedConfig ∧
      Config.load (configTree (dump (.map quotedConfig.entries))) "/tree"
        (some "golden-trace.yml") = .ok quotedConfig := by
  have hload : Config.load (configTree "resolveTarget: \"no: #x\\n\"\n") "/tree" none =
      .ok quotedConfig := by decide +kernel
  have hhome := home_configTree (dump (.map quotedConfig.entries))
  exact ⟨hload, Config.load_of_written hload (by rw [home_configTree]; decide)
    (hhome.trans (home_configTree _).symm) (read_configTree _)⟩

end GoldenRun
