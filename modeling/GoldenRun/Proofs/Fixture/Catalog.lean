import GoldenRun.Fixture.Discovery
import Mathlib.Data.List.Forall2

/-!
# What a catalog holds

* `scan_eq_ok_iff`: a scan names every fixture that is found
* `load_eq_ok_iff`: to load a catalog is to scan it, and to find every expected output to be a file
-/

namespace GoldenRun

open GoldenRun.Text

/-- One computation after another succeeds if both do. -/
theorem bind_eq_ok_iff {ε α β : Type} {x : Except ε α} {next : α → Except ε β} {b : β} :
    (x >>= next) = .ok b ↔ ∃ a, x = .ok a ∧ next a = .ok b := by
  cases x with
  | error e => simp [bind, Except.bind]
  | ok a => simp [bind, Except.bind]

/-- One computation after another fails if one of them does. -/
theorem bind_eq_error_iff {ε α β : Type} {x : Except ε α} {next : α → Except ε β} {e : ε} :
    (x >>= next) = .error e ↔ x = .error e ∨ ∃ a, x = .ok a ∧ next a = .error e := by
  cases x with
  | error e' => simp [bind, Except.bind]
  | ok a => simp [bind, Except.bind]

/-- A computation for each item succeeds if all do. -/
theorem mapM_eq_ok_iff {ε α β : Type} {f : α → Except ε β} {xs : List α} {ys : List β} :
    xs.mapM f = .ok ys ↔ List.Forall₂ (fun x y => f x = .ok y) xs ys := by
  induction xs generalizing ys with
  | nil => cases ys <;> simp [pure, Except.pure]
  | cons x xs ih =>
    rw [List.mapM_cons, bind_eq_ok_iff]
    constructor
    · rintro ⟨y, hy, hrest⟩
      obtain ⟨rest, hxs, hys⟩ := bind_eq_ok_iff.mp hrest
      obtain rfl := Except.ok.inj hys
      exact .cons hy (ih.mp hxs)
    · rintro (_ | ⟨hy, hxs⟩)
      exact ⟨_, hy, bind_eq_ok_iff.mpr ⟨_, ih.mpr hxs, rfl⟩⟩

/-- A computation for each item fails as the first that fails. -/
theorem mapM_eq_error_iff {ε α β : Type} {f : α → Except ε β} {xs : List α} {e : ε} :
    xs.mapM f = .error e ↔
      ∃ before x after, xs = before ++ x :: after ∧ (∀ y ∈ before, ∃ b, f y = .ok b) ∧
        f x = .error e := by
  induction xs with
  | nil => simp [pure, Except.pure]
  | cons x xs ih =>
    rw [List.mapM_cons, bind_eq_error_iff]
    constructor
    · rintro (hx | ⟨b, hx, hrest⟩)
      · exact ⟨[], x, xs, rfl, by simp, hx⟩
      · rcases bind_eq_error_iff.mp hrest with hxs | ⟨bs, -, hbs⟩
        · obtain ⟨before, y, after, rfl, hbefore, hy⟩ := ih.mp hxs
          exact ⟨x :: before, y, after, rfl, List.forall_mem_cons.mpr ⟨⟨b, hx⟩, hbefore⟩, hy⟩
        · cases hbs
    · rintro ⟨before, y, after, hsplit, hbefore, hy⟩
      cases before with
      | nil =>
        obtain ⟨rfl, -⟩ := List.cons_eq_cons.mp hsplit
        exact .inl hy
      | cons z before =>
        obtain ⟨rfl, hrest⟩ := List.cons_eq_cons.mp hsplit
        obtain ⟨⟨b, hb⟩, hbefore⟩ := List.forall_mem_cons.mp hbefore
        exact .inr ⟨b, hb, bind_eq_error_iff.mpr
          (.inl (ih.mpr ⟨before, y, after, hrest, hbefore, hy⟩))⟩

/-- A computation for each item fails as one of them does. -/
theorem mem_of_mapM_eq_error {ε α β : Type} {f : α → Except ε β} {xs : List α} {e : ε}
    (h : xs.mapM f = .error e) : ∃ x ∈ xs, f x = .error e := by
  obtain ⟨before, x, after, rfl, -, hx⟩ := mapM_eq_error_iff.mp h
  exact ⟨x, by simp, hx⟩

variable {w : Workspace} {root : String} {kind : Kind}

namespace Fixture

theorem scanKind_eq_ok_iff {fixtures : List Fixture} :
    scanKind w root kind = .ok fixtures ↔
      ∃ names, discover w root kind = .ok names ∧ fixtures = names.map (describe root kind) := by
  unfold scanKind
  cases discover w root kind with
  | error e => simp
  | ok names => simp [eq_comm]

/-- The files of the fixtures of one kind, as their directory lists them. -/
def listed (w : Workspace) (root : String) (kind : Kind) : Except DiskError (List String) :=
  if w.disk.hasEntry w.cwd (kind.directory root) then
    (w.disk.list w.cwd (kind.directory root)).map (·.filter (isFixtureName kind.extension))
  else .ok []

/-- Files that are listed in order are found in this order, each under its name without the
extension. -/
theorem discover_of_listed {files : List String} (hlisted : listed w root kind = .ok files)
    (hsorted : files.Pairwise fun a b => stringLe a b = true) :
    discover w root kind = .ok (files.map (Path.stem kind.extension)) := by
  unfold listed at hlisted
  unfold discover
  dsimp only
  by_cases hthere : w.disk.hasEntry w.cwd (kind.directory root) = true
  · rw [if_pos hthere] at hlisted ⊢
    cases hlist : w.disk.list w.cwd (kind.directory root) with
    | error error =>
      rw [hlist] at hlisted
      cases hlisted
    | ok names =>
      rw [hlist] at hlisted
      obtain rfl := Except.ok.inj hlisted
      rw [Except.map, fixtureNames, List.mergeSort_of_pairwise hsorted]
  · rw [if_neg hthere] at hlisted ⊢
    obtain rfl := Except.ok.inj hlisted
    rfl

theorem resolve_eq_ok_iff {name : String} {fixture : Fixture} :
    resolve w root kind name = .ok fixture ↔
      fixture = describe root kind name ∧ w.disk.isFile w.cwd fixture.expectedPath = true := by
  unfold resolve
  dsimp only
  split
  · next hfile =>
    constructor
    · intro h
      obtain rfl := Except.ok.inj h
      exact ⟨rfl, hfile⟩
    · rintro ⟨rfl, -⟩
      rfl
  · next hfile =>
    constructor
    · intro h
      cases h
    · rintro ⟨rfl, hfile'⟩
      exact absurd hfile' hfile

theorem loadKind_eq_ok_iff {fixtures : List Fixture} :
    loadKind w root kind = .ok fixtures ↔
      scanKind w root kind = .ok fixtures ∧
        ∀ f ∈ fixtures, w.disk.isFile w.cwd f.expectedPath = true := by
  have hresolved : ∀ (names : List String) (fixtures : List Fixture),
      names.mapM (resolve w root kind) = .ok fixtures ↔
        fixtures = names.map (describe root kind) ∧
          ∀ f ∈ fixtures, w.disk.isFile w.cwd f.expectedPath = true := by
    intro names fixtures
    rw [mapM_eq_ok_iff]
    induction names generalizing fixtures with
    | nil => cases fixtures <;> simp
    | cons name names ih =>
      cases fixtures with
      | nil => simp
      | cons f fixtures =>
        rw [List.forall₂_cons, ih, resolve_eq_ok_iff, List.map_cons, List.cons.injEq,
          List.forall_mem_cons]
        tauto
  unfold loadKind scanKind
  cases discover w root kind with
  | error e => simp
  | ok names =>
    dsimp only
    cases hmap : names.mapM (resolve w root kind) with
    | error d =>
      simp only [reduceCtorEq, false_iff, Except.ok.injEq, not_and]
      rintro rfl hfiles
      cases hmap.symm.trans ((hresolved names _).mpr ⟨rfl, hfiles⟩)
    | ok found =>
      obtain ⟨rfl, hfiles⟩ := (hresolved names found).mp hmap
      simp only [Except.ok.injEq]
      constructor
      · rintro rfl
        exact ⟨rfl, hfiles⟩
      · exact fun h => h.1

end Fixture

namespace Catalog

variable {fixtures : Kind → Except Failure (List Fixture)} {catalog : Catalog}

theorem gather_eq_ok_iff :
    gather root fixtures = .ok catalog ↔
      catalog.root = root ∧ ∀ kind, fixtures kind = .ok (catalog.fixtures kind) := by
  constructor
  · intro h
    obtain ⟨binaries, hbinaries, h⟩ := bind_eq_ok_iff.mp h
    obtain ⟨manifests, hmanifests, h⟩ := bind_eq_ok_iff.mp h
    obtain ⟨traces, htraces, h⟩ := bind_eq_ok_iff.mp h
    obtain rfl := Except.ok.inj h
    refine ⟨rfl, fun kind => ?_⟩
    cases kind with
    | binary => exact hbinaries
    | manifest => exact hmanifests
    | trace => exact htraces
  · rintro ⟨rfl, h⟩
    exact bind_eq_ok_iff.mpr ⟨_, h .binary, bind_eq_ok_iff.mpr ⟨_, h .manifest,
      bind_eq_ok_iff.mpr ⟨_, h .trace, rfl⟩⟩⟩

/-- A catalog has the root from which it was gathered. -/
theorem root_of_gather (h : gather root fixtures = .ok catalog) : catalog.root = root :=
  (gather_eq_ok_iff.mp h).1

/-- A catalog cannot be gathered if the fixtures of a kind cannot, and it fails as the first such
kind. -/
theorem gather_eq_error_iff {failure : Failure} :
    gather root fixtures = .error failure ↔
      ∃ earlier kind later, Kind.all = earlier ++ kind :: later ∧
        (∀ k ∈ earlier, ∃ found, fixtures k = .ok found) ∧ fixtures kind = .error failure := by
  have hmapM : gather root fixtures = .error failure ↔
      Kind.all.mapM fixtures = .error failure := by
    unfold gather Kind.all
    simp only [List.mapM_cons, List.mapM_nil]
    cases fixtures .binary <;> cases fixtures .manifest <;> cases fixtures .trace <;>
      simp [bind, Except.bind, pure, Except.pure]
  rw [hmapM, mapM_eq_error_iff]

/-- A catalog that cannot be gathered has a kind whose fixtures cannot. -/
theorem exists_of_gather {failure : Failure} (h : gather root fixtures = .error failure) :
    ∃ kind, fixtures kind = .error failure := by
  obtain ⟨earlier, kind, later, -, -, hkind⟩ := gather_eq_error_iff.mp h
  exact ⟨kind, hkind⟩

theorem mem_all {f : Fixture} : f ∈ catalog.all ↔ ∃ kind, f ∈ catalog.fixtures kind := by
  rw [all, List.mem_flatMap]
  exact ⟨fun ⟨kind, _, h⟩ => ⟨kind, h⟩, fun ⟨kind, h⟩ => ⟨kind, Kind.mem_all kind, h⟩⟩

/-- A scan names every fixture that is found. -/
theorem scan_eq_ok_iff :
    scan w root = .ok catalog ↔
      catalog.root = root ∧ ∀ kind, ∃ names, Fixture.discover w root kind = .ok names ∧
        catalog.fixtures kind = names.map (Fixture.describe root kind) := by
  rw [scan, gather_eq_ok_iff]
  simp only [Fixture.scanKind_eq_ok_iff]

/-- The names of the files of the fixtures of one kind. -/
def files (catalog : Catalog) (kind : Kind) : List String :=
  (catalog.fixtures kind).map fun f => f.name ++ kind.extension

/-- Where the files of a catalog are listed in order, a scan gives this catalog. -/
theorem scan_of_listed (hroot : catalog.root = root)
    (h : ∀ kind ∈ Kind.all, Fixture.listed w root kind = .ok (catalog.files kind) ∧
      (catalog.files kind).Pairwise (fun a b => stringLe a b = true) ∧
      catalog.fixtures kind = (catalog.files kind).map fun file =>
        .describe root kind (Path.stem kind.extension file)) :
    scan w root = .ok catalog := by
  refine scan_eq_ok_iff.mpr ⟨hroot, fun kind => ?_⟩
  obtain ⟨hlisted, hsorted, hfixtures⟩ := h kind (Kind.mem_all kind)
  refine ⟨_, Fixture.discover_of_listed hlisted hsorted, ?_⟩
  rw [List.map_map]
  exact hfixtures

/-- To load a catalog is to scan it, and to find that every expected output is a file. -/
theorem load_eq_ok_iff :
    load w root = .ok catalog ↔
      scan w root = .ok catalog ∧
        ∀ f ∈ catalog.all, w.disk.isFile w.cwd f.expectedPath = true := by
  rw [load, scan, gather_eq_ok_iff, gather_eq_ok_iff]
  simp only [Fixture.loadKind_eq_ok_iff, mem_all]
  constructor
  · rintro ⟨hroot, h⟩
    exact ⟨⟨hroot, fun kind => (h kind).1⟩, fun f ⟨kind, hf⟩ => (h kind).2 f hf⟩
  · rintro ⟨⟨hroot, h⟩, hfiles⟩
    exact ⟨hroot, fun kind => ⟨h kind, fun f hf => hfiles f ⟨kind, hf⟩⟩⟩

/-- A fixture of a scanned catalog is described by its kind and its name, which was found. -/
theorem eq_describe_of_scan (h : scan w root = .ok catalog) {f : Fixture}
    (hf : f ∈ catalog.fixtures kind) :
    f = Fixture.describe root kind f.name ∧
      ∃ names, Fixture.discover w root kind = .ok names ∧ f.name ∈ names := by
  obtain ⟨names, hnames, hfixtures⟩ := (scan_eq_ok_iff.mp h).2 kind
  rw [hfixtures] at hf
  obtain ⟨name, hname, rfl⟩ := List.mem_map.mp hf
  exact ⟨rfl, names, hnames, hname⟩

end Catalog

end GoldenRun
