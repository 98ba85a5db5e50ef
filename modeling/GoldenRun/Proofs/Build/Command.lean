import GoldenRun.Proofs.Build
import GoldenRun.Proofs.Template.Filling

/-!
# Build commands of texts and references

* `renderElement_source`: when an element that consists of texts and references can be filled in
* `commandFaults_pairwise`, `mem_commandFaults`: which elements are reported, and in which order
* `renderCommand_fills`: the variables are replaced in one pass, and everything else stays
* `Config.checkCommand_reports_unknown`: the elements that refer to unknown names are reported
-/

namespace GoldenRun

open GoldenRun.Template (Fault IsIdentifier Pattern)

variable {context : BuildContext} {i : Nat} {p : Pattern} {patterns : List Pattern}
  {template x : String} {templates : List String}

/-! ## Names -/

/-- The value of a variable; other names have none. -/
def BuildContext.value (c : BuildContext) (name : String) : String :=
  if name = "binary" then c.binary
  else if name = "manifest" then c.manifest
  else if name = "root" then c.root
  else ""

/-- The names to which every object answers, with nothing to show. -/
def inheritedNames : List String := Template.silentNames ++ Template.commonNames

/-- A name that is no variable and to which nothing answers. -/
def IsUnknown (name : String) : Prop := name ∉ buildVariables ∧ name ∉ inheritedNames

instance (name : String) : Decidable (IsUnknown name) := inferInstanceAs (Decidable (_ ∧ _))

/-- A pattern refers to an unknown name. -/
def RefersToUnknown (p : Pattern) : Prop := ∃ x ∈ p.names, IsUnknown x

/-- What the variables of a build command answer to a name. -/
theorem BuildContext.answer?_fields (c : BuildContext) (name : String) :
    Template.Fields.answer? c.fields name =
      if name ∈ buildVariables then some (.string (c.value name))
      else if name ∈ inheritedNames then some .undefined
      else none := by
  have hinherited : name ∈ inheritedNames ↔
      name ∈ Template.commonNames ∨ name ∈ Template.silentNames := by
    rw [inheritedNames, List.mem_append, or_comm]
  by_cases hbinary : name = "binary"
  · subst hbinary
    rfl
  · by_cases hmanifest : name = "manifest"
    · subst hmanifest
      rfl
    · by_cases hroot : name = "root"
      · subst hroot
        rfl
      · have hnone : Template.Fields.get? c.fields name = none := by
          simp [Template.Fields.get?, fields, Ne.symm hbinary, Ne.symm hmanifest, Ne.symm hroot]
        have hvariable : name ∉ buildVariables := by
          simp [buildVariables, hbinary, hmanifest, hroot]
        rw [Template.Fields.answer?, hnone, if_neg hvariable]
        simp only [hinherited]

/-- What is shown for a name that is not unknown is its value. -/
theorem BuildContext.answer_of_known (c : BuildContext) (hx : ¬IsUnknown x) :
    ∃ d, Template.Fields.answer? c.fields x = some d ∧ d.shown = .string (c.value x) := by
  rw [answer?_fields]
  by_cases hvariable : x ∈ buildVariables
  · rw [if_pos hvariable]
    exact ⟨_, rfl, rfl⟩
  · have hinherited : x ∈ inheritedNames := by
      by_contra h
      exact hx ⟨hvariable, h⟩
    have hvalue : c.value x = "" := by
      simp only [buildVariables, List.mem_cons, List.not_mem_nil, or_false, not_or] at hvariable
      simp [value, hvariable]
    rw [if_neg hvariable, if_pos hinherited, hvalue]
    exact ⟨_, rfl, rfl⟩

/-- Only an unknown name is taken for the mark of a last branch. -/
theorem isElse_eq_false (hx : ¬IsUnknown x) : Template.isElse x.toList = false := by
  have hall : ∀ x ∈ buildVariables ++ inheritedNames, Template.isElse x.toList = false := by
    decide +kernel
  refine hall x (List.mem_append.mpr ?_)
  by_contra h
  rw [not_or] at h
  exact hx h

/-! ## Elements -/

/-- **An element of texts and references can be filled in exactly if it refers to no unknown
name.** -/
theorem renderElement_source (context : BuildContext) (hwell : p.IsWellFormed)
    (hnames : ∀ x ∈ p.names, IsIdentifier x) :
    (¬RefersToUnknown p → renderElement context p.source = .ok (p.fill context.value)) ∧
      (RefersToUnknown p → ∃ fault, renderElement context p.source = .error fault) := by
  constructor
  · intro hknown
    refine Template.render_source hwell hnames fun x hx => ?_
    have hx : ¬IsUnknown x := fun h => hknown ⟨x, hx, h⟩
    exact ⟨isElse_eq_false hx, context.answer_of_known hx⟩
  · rintro ⟨x, hx, hvariable, hinherited⟩
    refine Template.render_source_fails hwell hnames ?_ ⟨x, hx, .inr ?_⟩
    · intro y _ d hd
      rw [BuildContext.answer?_fields] at hd
      split at hd
      · cases hd
        exact ⟨_, rfl⟩
      · split at hd
        · cases hd
          exact ⟨_, rfl⟩
        · cases hd
    · rw [BuildContext.answer?_fields, if_neg hvariable, if_neg hinherited]

theorem renderElement_eq_error_iff (context : BuildContext) (hwell : p.IsWellFormed)
    (hnames : ∀ x ∈ p.names, IsIdentifier x) :
    (∃ fault, renderElement context p.source = .error fault) ↔ RefersToUnknown p := by
  obtain ⟨hok, herror⟩ := renderElement_source context hwell hnames
  refine ⟨fun ⟨fault, hfault⟩ => ?_, herror⟩
  by_contra hknown
  rw [hok hknown] at hfault
  cases hfault

/-! ## Whole commands -/

/-- A command cannot be filled in exactly if one of its elements cannot. -/
theorem renderCommand_eq_error_iff (templates : List String) (context : BuildContext) :
    (∃ fault, renderCommand templates context = .error fault) ↔
      ∃ template ∈ templates, ∃ fault, renderElement context template = .error fault := by
  constructor
  · rintro ⟨fault, hfault⟩
    obtain ⟨template, hmem, helement⟩ := mem_of_mapM_eq_error hfault
    exact ⟨template, hmem, fault, helement⟩
  · rintro ⟨template, hmem, fault, helement⟩
    cases hrender : renderCommand templates context with
    | error fault => exact ⟨fault, rfl⟩
    | ok words =>
      have hwords := mapM_eq_ok_iff.mp hrender
      clear hrender
      exfalso
      induction hwords with
      | nil => cases hmem
      | @cons other word templates words hword _ ih =>
        rcases List.mem_cons.mp hmem with rfl | hrest
        · rw [helement] at hword
          cases hword
        · exact ih hrest

/-- The elements at fault are reported in their order. -/
theorem commandFaults_pairwise (templates : List String) (context : BuildContext) :
    ((commandFaults templates context).map (·.1)).Pairwise (· < ·) := by
  have hindices : templates.zipIdx.Pairwise fun a b => a.2 < b.2 := by
    rw [← List.pairwise_map (f := Prod.snd) (R := (· < ·)), List.zipIdx_map_snd]
    exact List.pairwise_lt_range'
  rw [List.pairwise_map, commandFaults, List.pairwise_filterMap]
  refine hindices.imp ?_
  rintro ⟨element, i⟩ ⟨element', j⟩ hlt fault hfault other hother
  simp only at hfault hother
  split at hfault
  · cases hfault
  · split at hother
    · cases hother
    · cases hfault
      cases hother
      exact hlt

/-- An element is reported exactly if it cannot be filled in. -/
theorem mem_commandFaults (templates : List String) (context : BuildContext) (i : Nat) :
    i ∈ (commandFaults templates context).map (·.1) ↔
      ∃ template, templates[i]? = some template ∧
        ∃ fault, renderElement context template = .error fault := by
  rw [List.mem_map]
  constructor
  · rintro ⟨⟨j, fault⟩, hmem, rfl⟩
    obtain ⟨⟨template, k⟩, hzip, hfault⟩ := List.mem_filterMap.mp hmem
    dsimp only at hfault
    split at hfault
    · cases hfault
    · next herror =>
      cases hfault
      exact ⟨template, List.mk_mem_zipIdx_iff_getElem?.mp hzip, fault, herror⟩
  · rintro ⟨template, htemplate, fault, herror⟩
    refine ⟨(i, fault), List.mem_filterMap.mpr ⟨(template, i), ?_, ?_⟩, rfl⟩
    · exact List.mk_mem_zipIdx_iff_getElem?.mpr htemplate
    · simp only [herror]

/-- **Every variable is replaced by its value in one pass, and everything else stays as it is.** -/
theorem renderCommand_fills (context : BuildContext) (hwell : ∀ p ∈ patterns, p.IsWellFormed)
    (hnames : ∀ p ∈ patterns, ∀ x ∈ p.names, x ∈ buildVariables) :
    renderCommand (patterns.map Pattern.source) context =
      .ok (patterns.map (Pattern.fill context.value)) := by
  have hidentifier : ∀ x ∈ buildVariables, IsIdentifier x := by decide
  rw [renderCommand, mapM_eq_ok_iff, List.forall₂_map_left_iff, List.forall₂_map_right_iff,
    List.forall₂_same]
  intro p hp
  have hknown : ¬RefersToUnknown p := fun ⟨x, hx, hunknown⟩ => hunknown.1 (hnames p hp x hx)
  exact (renderElement_source context (hwell p hp) fun x hx =>
    hidentifier x (hnames p hp x hx)).1 hknown

/-- A target whose name reads like a template. -/
def bracedContext : BuildContext := ⟨"a\x7b\x7broot\x7d\x7d", "<m> & \"n\"", "/r\n"⟩

/-- An element with blanks in its tag, and one whose tags touch and whose end is a brace. -/
def variablePatterns : List Pattern :=
  [⟨[("--bin=".toList, { lead := [' '], name := "binary", trail := ['\t'] })], ".rs".toList⟩,
    ⟨[([], { name := "root" }), ([], { name := "manifest" })], ['\x7b']⟩]

theorem renderCommand_fills_variablePatterns :
    (∀ p ∈ variablePatterns, p.IsWellFormed) ∧
      (∀ p ∈ variablePatterns, ∀ x ∈ p.names, x ∈ buildVariables) ∧
      renderCommand (variablePatterns.map Pattern.source) bracedContext =
        .ok (variablePatterns.map (Pattern.fill bracedContext.value)) :=
  ⟨by decide, by decide, renderCommand_fills bracedContext (by decide) (by decide)⟩

/-- What looks like a tag in a value stays as it is. -/
example : variablePatterns.map (Pattern.fill bracedContext.value) =
    ["--bin=a\x7b\x7broot\x7d\x7d.rs", "/r\n<m> & \"n\"\x7b"] := by decide

/-- **Unknown names are reported.**  An element of texts and references cannot be filled in exactly
if it refers to an unknown name, and the check of a configuration reports the positions of these
elements in ascending order, each of them once.  A name to which everything answers is not unknown:
it has no text. -/
theorem Config.checkCommand_reports_unknown {c : Config}
    (hcommand : c.buildCommand = patterns.map Pattern.source)
    (hwell : ∀ p ∈ patterns, p.IsWellFormed)
    (hnames : ∀ p ∈ patterns, ∀ x ∈ p.names, IsIdentifier x) (path root : String) :
    (∀ context, ∀ p ∈ patterns,
      (RefersToUnknown p → ∃ fault, renderElement context p.source = .error fault) ∧
      (¬RefersToUnknown p → renderElement context p.source = .ok (p.fill context.value))) ∧
    (∀ context, (∃ fault, renderCommand c.buildCommand context = .error fault) ↔
      ∃ p ∈ patterns, RefersToUnknown p) ∧
    ∃ faults : List (Nat × Fault),
      (faults.map (·.1)).Pairwise (· < ·) ∧
      (∀ i, i ∈ faults.map (·.1) ↔ ∃ p, patterns[i]? = some p ∧ RefersToUnknown p) ∧
      c.checkCommand path root =
        if faults = [] then .ok ()
        else .error (.configuration path (faults.map fun (i, fault) =>
          "/buildCommand/" ++ toString i ++ ": " ++ fault.message)) := by
  have helement : ∀ context, ∀ p ∈ patterns,
      (∃ fault, renderElement context p.source = .error fault) ↔ RefersToUnknown p :=
    fun context p hp => renderElement_eq_error_iff context (hwell p hp) (hnames p hp)
  refine ⟨fun context p hp => ?_, fun context => ?_, commandFaults c.buildCommand
    (c.checkContext root), commandFaults_pairwise _ _, fun i => ?_, ?_⟩
  · exact (renderElement_source context (hwell p hp) (hnames p hp)).symm
  · rw [renderCommand_eq_error_iff, hcommand]
    simp only [List.mem_map, exists_exists_and_eq_and]
    exact exists_congr fun p => and_congr_right fun hp => helement context p hp
  · rw [mem_commandFaults, hcommand]
    simp only [List.getElem?_map, Option.map_eq_some_iff, exists_exists_and_eq_and]
    exact exists_congr fun p => and_congr_right fun hp =>
      helement _ p (List.mem_of_getElem? hp)
  · rw [checkCommand]
    split
    · next hnone => rw [if_pos hnone]
    · next hsome => rw [if_neg hsome]; rfl

/-- A command with two elements at fault, one of them for a name that is read as a further
branch. -/
def misspeltPatterns : List Pattern :=
  [⟨[], "make".toList⟩, ⟨[([], { name := "target" })], []⟩,
    ⟨[("-".toList, { name := "binary" }), ([], { name := "toString" })], []⟩,
    ⟨[([], { name := "else" })], []⟩]

/-- The default configuration with that command. -/
def misspeltConfig : Config :=
  { Config.default with buildCommand := misspeltPatterns.map Pattern.source }

theorem Config.checkCommand_reports_unknown_misspeltConfig :
    misspeltConfig.buildCommand = misspeltPatterns.map Pattern.source ∧
      (∀ p ∈ misspeltPatterns, p.IsWellFormed) ∧
      (∀ p ∈ misspeltPatterns, ∀ x ∈ p.names, IsIdentifier x) ∧
      (∀ context, ∀ p ∈ misspeltPatterns,
        (RefersToUnknown p → ∃ fault, renderElement context p.source = .error fault) ∧
        (¬RefersToUnknown p → renderElement context p.source = .ok (p.fill context.value))) ∧
      (∀ context, (∃ fault, renderCommand misspeltConfig.buildCommand context = .error fault) ↔
        ∃ p ∈ misspeltPatterns, RefersToUnknown p) ∧
      ∃ faults : List (Nat × Fault),
        (faults.map (·.1)).Pairwise (· < ·) ∧
        (∀ i, i ∈ faults.map (·.1) ↔ ∃ p, misspeltPatterns[i]? = some p ∧ RefersToUnknown p) ∧
        misspeltConfig.checkCommand "/tree/golden-trace.yml" "/tree" =
          if faults = [] then .ok ()
          else .error (.configuration "/tree/golden-trace.yml" (faults.map fun (i, fault) =>
            "/buildCommand/" ++ toString i ++ ": " ++ fault.message)) :=
  ⟨rfl, by decide, by decide, Config.checkCommand_reports_unknown rfl (by decide) (by decide) _ _⟩

/-- A name that is no variable, but to which every object answers, becomes an empty argument, and
the check of the configuration does not report it. -/
theorem inherited_name_becomes_empty :
    IsIdentifier "constructor" ∧ "constructor" ∉ buildVariables ∧
      renderCommand ["\x7b\x7bconstructor\x7d\x7d"] ⟨"blinky", "general", "/tree"⟩ = .ok [""] ∧
      Config.checkCommand
        { Config.default with buildCommand := ["\x7b\x7bconstructor\x7d\x7d"] }
        "/tree/golden-trace.yml" "/tree" = .ok () := by
  exact ⟨by decide, by decide, by decide +kernel, by decide +kernel⟩

end GoldenRun
