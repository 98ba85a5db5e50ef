import GoldenRun.Expected
import GoldenRun.Number.Binary64
import GoldenRun.Path

/-!
# Configuration

A configuration says which manifests play which part, how a target is built, where tools are found,
how long a command may run, and what a blank line of an expected output means.  A configuration
file gives some of these as `Settings`; what it leaves out is as in `Config.default`.
-/

namespace GoldenRun

open GoldenRun.Number

/-- The configuration of a run. -/
structure Config where
  /-- The active-configuration file, from the root of the fixture tree. -/
  activeConfig : String
  /-- The manifest that is active while binaries are checked. -/
  generalManifest : String
  /-- The target that is resolved to check a manifest. -/
  resolveTarget : String
  /-- The command that builds a target, each element a template. -/
  buildCommand : List String
  /-- The directory appended to the search path of a replay. -/
  toolBinDir : String
  /-- The milliseconds that a command may run; zero is no limit. -/
  timeout : Binary64
  /-- What a blank line of an expected output means. -/
  blankLines : BlankPolicy
  deriving DecidableEq, Repr

/-- The configuration used where a file says nothing. -/
def Config.default : Config where
  activeConfig := "Cargo.toml"
  generalManifest := "general"
  resolveTarget := "general"
  buildCommand := ["cargo", "build", "--bin", "\x7b\x7bbinary\x7d\x7d"]
  toolBinDir := "~/.cargo/bin"
  timeout := .zero false
  blankLines := .ignore

/-- What a configuration file sets. -/
structure Settings where
  /-- The active-configuration file. -/
  activeConfig : Option String := none
  /-- The manifest that is active while binaries are checked. -/
  generalManifest : Option String := none
  /-- The target that is resolved to check a manifest. -/
  resolveTarget : Option String := none
  /-- The build command. -/
  buildCommand : Option (List String) := none
  /-- The directory appended to the search path of a replay. -/
  toolBinDir : Option String := none
  /-- The time limit. -/
  timeout : Option Binary64 := none
  /-- The meaning of a blank line. -/
  blankLines : Option BlankPolicy := none
  deriving DecidableEq, Repr

/-- A configuration with some settings laid over it. -/
def Config.overlay (c : Config) (s : Settings) : Config where
  activeConfig := s.activeConfig.getD c.activeConfig
  generalManifest := s.generalManifest.getD c.generalManifest
  resolveTarget := s.resolveTarget.getD c.resolveTarget
  buildCommand := s.buildCommand.getD c.buildCommand
  toolBinDir := s.toolBinDir.getD c.toolBinDir
  timeout := s.timeout.getD c.timeout
  blankLines := s.blankLines.getD c.blankLines

/-- The configuration that some settings mean for a user with the given home directory. -/
def Settings.resolve (home : String) (s : Settings) : Config :=
  let c := Config.default.overlay s
  { c with toolBinDir := Path.expandHome home c.toolBinDir }

end GoldenRun
