import GoldenRun.Proofs.Fixture.Paths

/-!
# Fixtures that share an expected output

All expected outputs lie in one directory, under a name that is made from the kind and the name of
the fixture.  So two fixtures can have one expected output, and then it serves both.

* `Fixture.expectedPath_eq_iff`: two fixtures of one tree have the same expected output exactly if
  their file names are made to be the same
* `Catalog.shared_output_iff`: in a catalog this happens to a binary and a manifest of one name, to
  a trace and what is named like it behind the mark of traces, and to no others
-/

namespace GoldenRun

/-- `f.Collides g`: these are a binary and a manifest of one name, or a trace and a fixture of
another kind whose name is that of the trace behind `trace-`. -/
def Fixture.Collides (f g : Fixture) : Prop :=
  f.kind = .binary ∧ g.kind = .manifest ∧ f.name = g.name ∨
    f.kind = .trace ∧ g.kind ≠ .trace ∧ g.name = "trace-" ++ f.name

namespace Fixture

variable {root name other : String} {kind kind' : Kind}

/-- Two fixtures of one tree have the same expected output if its name is made to be the same. -/
theorem expectedPath_eq_iff (hname : '/' ∉ name.toList) (hother : '/' ∉ other.toList) :
    (describe root kind name).expectedPath = (describe root kind' other).expectedPath ↔
      expectedStem kind name = expectedStem kind' other := by
  constructor
  · intro h
    have hfile : expectedStem kind name ++ ".run" = expectedStem kind' other ++ ".run" :=
      Path.join_injective (isName_expectedName hname) (isName_expectedName hother) h
    exact String.append_left_inj ".run" |>.mp hfile
  · intro h
    show Path.join (expectedDirectory root) (expectedStem kind name ++ ".run") =
      Path.join (expectedDirectory root) (expectedStem kind' other ++ ".run")
    rw [h]

/-- The file names of two expected outputs are made to be the same exactly for fixtures that
collide. -/
theorem expectedStem_eq_iff (hne : describe root kind name ≠ describe root kind' other) :
    expectedStem kind name = expectedStem kind' other ↔
      (describe root kind name).Collides (describe root kind' other) ∨
        (describe root kind' other).Collides (describe root kind name) := by
  -- Fixtures of one kind that are not the same have different names.
  have hnames : kind = kind' → name ≠ other := by
    rintro rfl rfl
    exact hne rfl
  cases kind <;> cases kind' <;> simp_all [Collides, expectedStem, describe, eq_comm]

theorem shared_describe_iff (hname : '/' ∉ name.toList) (hother : '/' ∉ other.toList)
    (hne : describe root kind name ≠ describe root kind' other) :
    (describe root kind name).expectedPath = (describe root kind' other).expectedPath ↔
      (describe root kind name).Collides (describe root kind' other) ∨
        (describe root kind' other).Collides (describe root kind name) :=
  (expectedPath_eq_iff hname hother).trans (expectedStem_eq_iff hne)

end Fixture

variable {w : Workspace} {root : String} {catalog : Catalog}

/--
**Two fixtures share an expected output exactly if they collide.**

So of two different fixtures of a catalog that share one, neither is a trace, and they are a binary
and a manifest of one name; or one is a trace, and the name of the other, which is none, is made of
`trace-` and the name of the trace.  No expected output that is written for a fixture of whichever
kind and name serves another one without such a collision, be there such a fixture or not.
-/
theorem Catalog.shared_output_iff (hdisk : w.disk.Legal)
    (hcatalog : Catalog.load w root = .ok catalog) :
    (∀ f ∈ catalog.all, ∀ g ∈ catalog.all, f ≠ g →
      (f.expectedPath = g.expectedPath ↔ f.Collides g ∨ g.Collides f)) ∧
    ∀ f ∈ catalog.all, ∀ kind name, '/' ∉ name.toList → f ≠ .describe root kind name →
      (f.expectedPath = (Fixture.describe root kind name).expectedPath ↔
        f.Collides (.describe root kind name) ∨ (Fixture.describe root kind name).Collides f) := by
  have hdescribed : ∀ f ∈ catalog.all,
      f = .describe root f.kind f.name ∧ '/' ∉ f.name.toList := by
    intro f hf
    obtain ⟨kind, hkind⟩ := Catalog.mem_all.mp hf
    obtain ⟨hdescribe, hname⟩ :=
      Catalog.describe_of_scan hdisk (Catalog.load_eq_ok_iff.mp hcatalog).1 kind hkind
    have hsame : f.kind = kind := congrArg Fixture.kind hdescribe
    rw [hsame]
    exact ⟨hdescribe, hname⟩
  have hshared : ∀ f ∈ catalog.all, ∀ kind name, '/' ∉ name.toList →
      f ≠ .describe root kind name →
      (f.expectedPath = (Fixture.describe root kind name).expectedPath ↔
        f.Collides (.describe root kind name) ∨
          (Fixture.describe root kind name).Collides f) := by
    intro f hf kind name hname hne
    obtain ⟨hdescribe, hplain⟩ := hdescribed f hf
    rw [hdescribe] at hne ⊢
    exact Fixture.shared_describe_iff hplain hname hne
  refine ⟨fun f hf g hg hne => ?_, hshared⟩
  obtain ⟨hdescribe, hplain⟩ := hdescribed g hg
  rw [hdescribe] at hne ⊢
  exact hshared f hf g.kind g.name hplain hne

/-- A tree with a binary and a trace, and one expected output for both. -/
def collidingTree : Workspace where
  disk := ⟨[(["tree"], .directory), (["tree", "src"], .directory),
    (["tree", "src", "bin"], .directory), (["tree", "src", "bin", "trace-x.rs"], .file [] false),
    (["tree", "traces"], .directory), (["tree", "traces", "x.trace"], .file [] false),
    (["tree", "out"], .directory), (["tree", "out", "trace-x.run"], .file [] false)]⟩
  cwd := ["tree"]
  env := []

/-- The fixtures of that tree. -/
def collidingCatalog : Catalog :=
  ⟨"/tree", [.describe "/tree" .binary "trace-x"], [], [.describe "/tree" .trace "x"]⟩

theorem load_collidingTree : Catalog.load collidingTree "/tree" = .ok collidingCatalog :=
  Catalog.load_eq_ok_iff.mpr
    ⟨Catalog.scan_of_listed rfl (by decide +kernel), by decide +kernel⟩

theorem Catalog.shared_output_collidingTree :
    collidingTree.disk.Legal ∧ Catalog.load collidingTree "/tree" = .ok collidingCatalog ∧
      ((Fixture.describe "/tree" .trace "x").Collides (.describe "/tree" .binary "trace-x") ∨
        (Fixture.describe "/tree" .binary "trace-x").Collides (.describe "/tree" .trace "x")) := by
  have hlegal : collidingTree.disk.Legal := by
    unfold Disk.Legal
    decide +kernel
  obtain ⟨hshared, -⟩ := Catalog.shared_output_iff hlegal load_collidingTree
  exact ⟨hlegal, load_collidingTree,
    (hshared _ (by decide +kernel) _ (by decide +kernel) (by decide +kernel)).mp
      (by decide +kernel)⟩

/-- The expected output of a binary serves a trace, whose own is not there to be missed. -/
theorem Catalog.trace_shares_output_of_binary :
    ∃ catalog, Catalog.load collidingTree "/tree" = .ok catalog ∧
      ∃ trace ∈ catalog.traces, ∃ binary ∈ catalog.binaries, trace ≠ binary ∧
        trace.expectedPath = binary.expectedPath ∧ trace.name ≠ binary.name := by
  refine ⟨collidingCatalog, load_collidingTree, .describe "/tree" .trace "x", by decide +kernel,
    .describe "/tree" .binary "trace-x", by decide +kernel, by decide +kernel, by decide +kernel,
    by decide +kernel⟩

end GoldenRun
