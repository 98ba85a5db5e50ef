import GoldenRun.Proofs.Config.Reload
import GoldenRun.Proofs.Fixture.Catalog

/-!
# Requests for builds

* `renderCommand_spec`: a build command is filled in element by element
* `BuildSetup.request_of_load`: when the build command of a configuration that was loaded fails
-/

namespace GoldenRun

variable {w : Workspace} {root binary : String} {named : Option String} {c : Config}
  {active : ActiveConfiguration} {timeout : Option Number.Binary64} {context : BuildContext}
  {templates : List String}

/-- A build command is filled in element by element, or one of its elements fails. -/
theorem renderCommand_spec (templates : List String) (context : BuildContext) :
    (∃ words, renderCommand templates context = .ok words ∧ words.length = templates.length) ∨
      ∃ fault, renderCommand templates context = .error fault ∧
        ∃ template ∈ templates, renderElement context template = .error fault := by
  cases hrender : renderCommand templates context with
  | ok words => exact .inl ⟨words, rfl, (mapM_eq_ok_iff.mp hrender).length_eq.symm⟩
  | error fault => exact .inr ⟨fault, rfl, mem_of_mapM_eq_error hrender⟩

/-- Where there are no faults, every element can be filled in. -/
theorem renderElement_of_commandFaults (h : commandFaults templates context = []) :
    ∀ template ∈ templates, ∃ word, renderElement context template = .ok word := by
  intro template hmem
  rw [commandFaults, List.filterMap_eq_nil_iff] at h
  obtain ⟨i, hi⟩ := List.mem_iff_getElem?.mp hmem
  have hnone := h (template, i) (List.mk_mem_zipIdx_iff_getElem?.mpr hi)
  cases hrender : renderElement context template with
  | ok word => exact ⟨word, rfl⟩
  | error fault =>
    simp only [hrender] at hnone
    cases hnone

/-- The variables of a build command. -/
def buildVariables : List String := ["binary", "manifest", "root"]

/-- An element that consists of texts and variables can be filled in for any target. -/
theorem renderElement_of_isPlain {template : String}
    (h : Template.isPlain buildVariables template = true) (context : BuildContext) :
    ∃ word, renderElement context template = .ok word := by
  refine Template.render_of_isPlain h fun name hname => ?_
  simp only [buildVariables, List.mem_cons, List.not_mem_nil, or_false] at hname
  rcases hname with rfl | rfl | rfl
  · exact ⟨_, rfl⟩
  · exact ⟨_, rfl⟩
  · exact ⟨_, rfl⟩

/-- **The build command of a configuration that was loaded is not empty, and it fails only at an
element that does more than to write texts and variables, and only for a target that is not named as
the general manifest is.** -/
theorem BuildSetup.request_of_load (hload : Config.load w root named = .ok c)
    (hactive : active.manifest = c.generalManifest) :
    (∃ request, BuildSetup.request ⟨c.buildCommand, root, timeout⟩ binary active = .ok request ∧
      (request.command :: request.args).length = c.buildCommand.length) ∨
    (∃ fault, BuildSetup.request ⟨c.buildCommand, root, timeout⟩ binary active =
        .error (.template fault)) ∧
      binary ≠ c.generalManifest ∧
      ∃ template ∈ c.buildCommand, Template.isPlain buildVariables template = false := by
  obtain ⟨⟨s, hs, hresolve⟩, hfaults⟩ := Config.load_eq_ok hload
  have hne : c.buildCommand ≠ [] := hresolve ▸ (hs.command_resolve w.home).1
  rcases renderCommand_spec c.buildCommand ⟨binary, active.manifest, root⟩ with
    ⟨words, hwords, hlength⟩ | ⟨fault, hfault, template, hmem, helement⟩
  · left
    cases words with
    | nil => exact absurd (List.length_eq_zero_iff.mp hlength.symm) hne
    | cons command args =>
      refine ⟨⟨command, args, Path.directory active.path, none, timeout⟩, ?_, hlength⟩
      rw [BuildSetup.request, hwords]
  · right
    refine ⟨⟨fault, by rw [BuildSetup.request, hfault]⟩, ?_, template, hmem, ?_⟩
    · rintro rfl
      obtain ⟨word, hword⟩ := renderElement_of_commandFaults hfaults template hmem
      rw [hactive] at helement
      rw [Config.checkContext, helement] at hword
      cases hword
    · rw [← Bool.not_eq_true]
      intro hplain
      obtain ⟨word, hword⟩ := renderElement_of_isPlain hplain ⟨binary, active.manifest, root⟩
      rw [helement] at hword
      cases hword

/-- An element with a block for long names alone. -/
def guardedElement : String :=
  "\x7b\x7b#if binary.[7]\x7d\x7d\x7b\x7btypo\x7d\x7d\x7b\x7b/if\x7d\x7d"

/-- The text of a configuration file with that element. -/
def guardedText : String := "buildCommand: ['make', '" ++ guardedElement ++ "']\n"

/-- The configuration in that file. -/
def guardedConfig : Config :=
  { Config.default with
    buildCommand := ["make", guardedElement]
    toolBinDir := "/home/dev/.cargo/bin" }

theorem load_guardedText :
    Config.load (configTree guardedText) "/tree" none = .ok guardedConfig := by
  decide +kernel

/-- The general manifest, installed in the tree. -/
def generalActive : ActiveConfiguration := ⟨"general", "/tree/Cargo.toml"⟩

theorem BuildSetup.request_of_load_guardedConfig :
    Config.load (configTree guardedText) "/tree" none = .ok guardedConfig ∧
      generalActive.manifest = guardedConfig.generalManifest ∧
      ((∃ request, BuildSetup.request ⟨guardedConfig.buildCommand, "/tree", none⟩ "general"
          generalActive = .ok request ∧
          (request.command :: request.args).length = guardedConfig.buildCommand.length) ∨
        (∃ fault, BuildSetup.request ⟨guardedConfig.buildCommand, "/tree", none⟩ "general"
            generalActive = .error (.template fault)) ∧
          "general" ≠ guardedConfig.generalManifest ∧
          ∃ template ∈ guardedConfig.buildCommand,
            Template.isPlain buildVariables template = false) :=
  ⟨load_guardedText, rfl, BuildSetup.request_of_load load_guardedText rfl⟩

/-- The configuration is loaded, but no target with a long name can be built with it. -/
theorem guardedConfig_fails_for_long_name :
    Config.load (configTree guardedText) "/tree" none = .ok guardedConfig ∧
      generalActive.manifest = guardedConfig.generalManifest ∧
      BuildSetup.request ⟨guardedConfig.buildCommand, "/tree", none⟩ "scheduler" generalActive =
        .error (.template (.notDefined "typo" "[object Object]" ⟨1, 20⟩)) :=
  ⟨load_guardedText, rfl, by decide +kernel⟩

end GoldenRun
