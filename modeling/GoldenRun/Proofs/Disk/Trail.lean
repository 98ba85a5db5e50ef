import GoldenRun.Proofs.Disk
import Mathlib.Data.List.Induction

/-!
# What a path looks at

A path is followed from name to name, and only the entries on its way matter.

* `locate_congr`: on two disks with the same entries on its way, a path leads to the same place
* `DiffersAt.find_or_obstacle`: where two disks differ in a file, a path that leads elsewhere finds
  the same, unless it goes through that file as if it were a directory
* `copiesAlike`: a copy does the same to two disks on which it finds the same
* `SameTree`: disks with the same entries at all locations; operations cannot tell them apart
* `DiffersAt.copy`: a copy over the file at which two disks differ makes them the same
* `DiffersAt.remove`: to take that file away changes nothing else, on a disk that `IsTree`
-/

namespace GoldenRun

/-- The location that a path leads to. -/
def Place.location : Place → Location
  | .present location _ => location
  | .absent location _ => location

namespace Disk

variable {disk disk' disk'' : Disk} {cwd here goal : Location} {path source target : String}
  {names : List String} {slash : Bool} {place : Place}

/-! ## The way of a path -/

/-- The locations that are looked at when names are followed. -/
def trailFrom (disk : Disk) : Location → List String → List Location
  | _, [] => []
  | here, name :: rest =>
    if name = "." then disk.trailFrom here rest
    else if name = ".." then disk.trailFrom here.dropLast rest
    else
      (here ++ [name]) ::
        if disk.get? (here ++ [name]) = some .directory then disk.trailFrom (here ++ [name]) rest
        else []

/-- The locations that are looked at on the way of a path. -/
def trail (disk : Disk) (cwd : Location) (path : String) : List Location :=
  let start := if Path.isAbsolute path then [] else cwd
  start :: disk.trailFrom start ((Path.parts path).filter (· ≠ ""))

theorem follow_congr (h : ∀ l ∈ disk.trailFrom here names, disk'.get? l = disk.get? l) :
    disk'.follow slash here names = disk.follow slash here names := by
  fun_induction trailFrom disk here names with
  | case1 => rfl
  | case2 here rest ih =>
    rw [follow, follow, if_pos rfl, if_pos rfl, ih h]
  | case3 here rest hdot ih =>
    rw [follow, follow, if_neg hdot, if_neg hdot, if_pos rfl, if_pos rfl, ih h]
  | case4 here name rest hdot hdots ih =>
    have hnext := h (here ++ [name]) List.mem_cons_self
    rw [follow, follow, if_neg hdot, if_neg hdot, if_neg hdots, if_neg hdots]
    dsimp only
    rw [hnext]
    -- Only below a directory more is looked at.
    by_cases hdirectory : disk.get? (here ++ [name]) = some .directory
    · rw [if_pos hdirectory] at h
      rw [hdirectory]
      dsimp only
      rw [ih fun l hl => h l (List.mem_cons_of_mem _ hl)]
    · cases hentry : disk.get? (here ++ [name]) with
      | none => rfl
      | some entry =>
        cases entry with
        | directory => exact (hdirectory hentry).elim
        | file bytes mark => rfl

/-- **A path leads to the same place where the entries on its way are the same.** -/
theorem locate_congr (h : ∀ l ∈ disk.trail cwd path, disk'.get? l = disk.get? l) :
    disk'.locate cwd path = disk.locate cwd path := by
  have hstart := h _ List.mem_cons_self
  unfold locate isDirectory
  dsimp only at hstart ⊢
  rw [hstart, follow_congr fun l hl => h l (List.mem_cons_of_mem _ hl)]

/-- Only a directory leads on. -/
theorem trailFrom_of_last {name : String} (hdot : name ≠ ".") (hdots : name ≠ "..")
    (hlast : disk.get? (here ++ [name]) ≠ some .directory) :
    disk.trailFrom here (name :: names) = [here ++ [name]] := by
  rw [trailFrom, if_neg hdot, if_neg hdots, if_neg hlast]

theorem find_congr (h : disk'.locate cwd path = disk.locate cwd path) :
    disk'.find cwd path = disk.find cwd path := by
  unfold find
  rw [h]

theorem destination_congr (h : disk'.locate cwd path = disk.locate cwd path) :
    disk'.destination cwd path = disk.destination cwd path := by
  unfold destination
  rw [h]

/-! ## What stands in the way -/

/-- Why nothing is found below what is no directory: a file stands there, or nothing. -/
def obstacle (disk : Disk) (l : Location) : DiskFault :=
  if (disk.get? l).isSome then .notDirectory else .notFound

/-- Names that go on below what is no directory, or end in a slash there, lead to nothing. -/
theorem follow_obstacle {name : String} (hdot : name ≠ ".") (hdots : name ≠ "..")
    (hlong : ¬ 255 < name.utf8ByteSize) (hnot : disk.get? (here ++ [name]) ≠ some .directory)
    (hon : names ≠ [] ∨ slash = true) :
    disk.follow slash here (name :: names) = .error (disk.obstacle (here ++ [name])) ∨
      disk.obstacle (here ++ [name]) = .notFound ∧
        disk.follow slash here (name :: names) = .ok (.absent (here ++ [name]) slash) := by
  rw [follow, if_neg hdot, if_neg hdots, if_neg hlong, obstacle]
  dsimp only
  cases hentry : disk.get? (here ++ [name]) with
  | none =>
    by_cases hnames : names = []
    · exact .inr ⟨rfl, if_pos hnames⟩
    · exact .inl (if_neg hnames)
  | some entry =>
    cases entry with
    | directory => exact (hnot hentry).elim
    | file bytes mark =>
      have hgoesOn : (decide (names = []) && !slash) ≠ true := by
        rcases hon with hnames | rfl <;> simp_all
      exact .inl (if_neg hgoesOn)

/-- Where two disks differ in a file, names that lead elsewhere lead to the same, unless they go
through that file. -/
theorem follow_or_obstacle (helsewhere : ∀ l, l ≠ goal → disk'.get? l = disk.get? l)
    (hgoal : disk.get? goal ≠ some .directory) (hgoal' : disk'.get? goal ≠ some .directory)
    (hleads : ∀ place, disk.follow slash here names = .ok place → place.location ≠ goal) :
    disk'.follow slash here names = disk.follow slash here names ∨
      goal ∈ disk.trailFrom here names ∧
        disk.follow slash here names = .error (disk.obstacle goal) ∧
        (disk'.follow slash here names = .error (disk'.obstacle goal) ∨
          disk'.obstacle goal = .notFound ∧
            disk'.follow slash here names = .ok (.absent goal slash)) := by
  fun_induction follow disk slash here names with
  | case1 => exact .inl rfl
  | case2 here rest ih =>
    rw [follow, if_pos rfl, trailFrom, if_pos rfl]
    exact ih hleads
  | case3 here rest hdot ih =>
    rw [follow, if_neg hdot, if_pos rfl, trailFrom, if_neg hdot, if_pos rfl]
    exact ih hleads
  | case4 here name rest hdot hdots hlong =>
    rw [follow, if_neg hdot, if_neg hdots, if_pos hlong]
    exact .inl rfl
  | case5 here name hdot hdots hlong next hnext =>
    have hsame := helsewhere next (hleads _ rfl)
    rw [follow, if_neg hdot, if_neg hdots, if_neg hlong]
    simp [next, hsame, hnext]
  | case6 here name rest hdot hdots hlong next hnext hrest =>
    by_cases hthere : next = goal
    · subst hthere
      rw [trailFrom_of_last hdot hdots hgoal]
      exact .inr ⟨List.mem_singleton.mpr rfl, by simp [obstacle, hnext],
        follow_obstacle hdot hdots hlong hgoal' (.inl hrest)⟩
    · rw [follow, if_neg hdot, if_neg hdots, if_neg hlong]
      simp [next, helsewhere next hthere, hnext, hrest]
  | case7 here name rest hdot hdots hlong next bytes mark hnext hlast =>
    have hsame := helsewhere next (hleads _ rfl)
    rw [follow, if_neg hdot, if_neg hdots, if_neg hlong]
    simp [next, hsame, hnext, hlast]
  | case8 here name rest hdot hdots hlong next bytes mark hnext hlast =>
    by_cases hthere : next = goal
    · subst hthere
      have hon : rest ≠ [] ∨ slash = true := by
        by_cases hrest : rest = [] <;> simp_all
      rw [trailFrom_of_last hdot hdots hgoal]
      exact .inr ⟨List.mem_singleton.mpr rfl, by simp [obstacle, hnext],
        follow_obstacle hdot hdots hlong hgoal' hon⟩
    · rw [follow, if_neg hdot, if_neg hdots, if_neg hlong]
      simp [next, helsewhere next hthere, hnext, hlast]
  | case9 here name rest hdot hdots hlong next hnext ih =>
    have hentry : disk.get? next = some .directory := hnext
    have hthere : next ≠ goal := fun hthere => hgoal (hthere ▸ hentry)
    rw [follow, if_neg hdot, if_neg hdots, if_neg hlong, trailFrom, if_neg hdot, if_neg hdots,
      if_pos hentry, List.mem_cons]
    simp only [next, helsewhere next hthere, hnext]
    rcases ih hleads with hsame | ⟨hmem, hrefused⟩
    · exact .inl hsame
    · exact .inr ⟨.inr hmem, hrefused⟩

/-- The same for a path. -/
theorem locate_or_obstacle (helsewhere : ∀ l, l ≠ goal → disk'.get? l = disk.get? l)
    (hgoal : disk.get? goal ≠ some .directory) (hgoal' : disk'.get? goal ≠ some .directory)
    (hleads : ∀ place, disk.locate cwd path = .ok place → place.location ≠ goal) :
    disk'.locate cwd path = disk.locate cwd path ∨
      goal ∈ disk.trail cwd path ∧ disk.locate cwd path = .error (disk.obstacle goal) ∧
        (disk'.locate cwd path = .error (disk'.obstacle goal) ∨
          disk'.obstacle goal = .notFound ∧
            ∃ ends, disk'.locate cwd path = .ok (.absent goal ends)) := by
  unfold locate at hleads ⊢
  unfold trail
  dsimp only at hleads ⊢
  generalize (if Path.isAbsolute path = true then [] else cwd) = start at hleads ⊢
  have hstart : disk'.isDirectory start = disk.isDirectory start := by
    unfold isDirectory
    by_cases hthere : start = goal
    · simp [hthere, hgoal, hgoal']
    · rw [helsewhere start hthere]
  rw [hstart]
  by_cases hempty : path = ""
  · simp [hempty]
  by_cases hlong : 4096 ≤ path.utf8ByteSize
  · simp [hempty, hlong]
  cases hdirectory : disk.isDirectory start with
  | false => simp [hempty, hlong]
  | true =>
    simp only [hempty, hlong, hdirectory, if_false, Bool.not_true, Bool.false_eq_true] at hleads ⊢
    rcases follow_or_obstacle helsewhere hgoal hgoal' hleads with
      hsame | ⟨hmem, hrefused, hrefused' | ⟨hnone, habsent⟩⟩
    · exact .inl hsame
    · exact .inr ⟨List.mem_cons_of_mem _ hmem, hrefused, .inl hrefused'⟩
    · exact .inr ⟨List.mem_cons_of_mem _ hmem, hrefused, .inr ⟨hnone, _, habsent⟩⟩

/--
What a copy does to two disks on which it finds the same.

It leaves both alone, it writes the same file to both, or it fails and takes the same location away
from both.
-/
inductive CopiesAlike (disk disk' : Disk) (cwd : Location) (source target : String) : Prop where
  /-- Both are left alone; if the copy succeeds, the file stands there already. -/
  | kept (outcome : Except DiskError Unit) (h : disk.copy cwd source target = (outcome, disk))
    (h' : disk'.copy cwd source target = (outcome, disk'))
    (hthere : outcome = .ok () → ∃ goal, disk.destination cwd target = .ok goal ∧
      disk'.get? goal = disk.get? goal)
  /-- The same file is written to both. -/
  | written (goal : Location) (entry : Entry) (hgoal : disk.destination cwd target = .ok goal)
    (h : disk.copy cwd source target = (.ok (), disk.put goal entry))
    (h' : disk'.copy cwd source target = (.ok (), disk'.put goal entry))
  /-- The same location is taken away from both. -/
  | removed (goal : Location) (error : DiskError)
    (hgoal : disk.destination cwd target = .ok goal)
    (h : disk.copy cwd source target = (.error error, disk.remove goal))
    (h' : disk'.copy cwd source target = (.error error, disk'.remove goal))

theorem copiesAlike (hfind : disk'.find cwd source = disk.find cwd source)
    (htarget : disk'.destination cwd target = disk.destination cwd target) :
    CopiesAlike disk disk' cwd source target := by
  by_cases hnul : hasNul source = true
  · exact .kept _ (copy_of_nul_source hnul) (copy_of_nul_source hnul) nofun
  by_cases hnul' : hasNul target = true
  · exact .kept _ (copy_of_nul_target hnul hnul') (copy_of_nul_target hnul hnul') nofun
  cases hfound : disk.find cwd source with
  | error fault =>
    exact .kept _ (copy_of_find_error hnul hnul' hfound)
      (copy_of_find_error hnul hnul' (hfind.trans hfound)) nofun
  | ok found =>
    obtain ⟨origin, entry⟩ := found
    cases hgoal : disk.destination cwd target with
    | error fault =>
      exact .kept _ (copy_of_destination_error hnul hnul' hfound hgoal)
        (copy_of_destination_error hnul hnul' (hfind.trans hfound) (htarget.trans hgoal)) nofun
    | ok goal =>
      cases entry with
      | directory =>
        exact .removed goal _ hgoal (copy_of_directory hnul hnul' hfound hgoal)
          (copy_of_directory hnul hnul' (hfind.trans hfound) (htarget.trans hgoal))
      | file bytes mark =>
        have hcopy := copy_of_file hnul hnul' hfound hgoal
        have hcopy' := copy_of_file hnul hnul' (hfind.trans hfound) (htarget.trans hgoal)
        by_cases hsame : origin = goal
        · rw [if_pos hsame] at hcopy hcopy'
          refine .kept _ hcopy hcopy' fun _ => ⟨goal, hgoal, ?_⟩
          -- A file copied over itself is what the source leads to, on both disks.
          have hthere := holds_of_locate (find_eq_ok_iff.mp hfound)
          have hthere' := holds_of_locate (find_eq_ok_iff.mp (hfind.trans hfound))
          rw [← hsame]
          exact Eq.trans hthere' (Eq.symm hthere)
        · rw [if_neg hsame] at hcopy hcopy'
          exact .written goal _ hgoal hcopy hcopy'

/-! ## Disks that are the same tree -/

/-- Two disks with the same entry at every location. -/
def SameTree (disk disk' : Disk) : Prop := ∀ l, disk'.get? l = disk.get? l

namespace SameTree

theorem refl : SameTree disk disk := fun _ => rfl

theorem symm (h : SameTree disk disk') : SameTree disk' disk := fun l => (h l).symm

theorem trans (h : SameTree disk disk') (h' : SameTree disk' disk'') : SameTree disk disk'' :=
  fun l => (h' l).trans (h l)

theorem locate (h : SameTree disk disk') (cwd : Location) (path : String) :
    disk'.locate cwd path = disk.locate cwd path :=
  locate_congr fun l _ => h l

theorem readText (h : SameTree disk disk') (cwd : Location) (path : String) :
    disk'.readText cwd path = disk.readText cwd path := by
  unfold Disk.readText read
  rw [find_congr (h.locate cwd path)]

theorem copiesAlike (h : SameTree disk disk') (cwd : Location) (source target : String) :
    CopiesAlike disk disk' cwd source target :=
  Disk.copiesAlike (find_congr (h.locate cwd source)) (destination_congr (h.locate cwd target))

/-- A copy keeps disks the same, and goes in the same way on both. -/
theorem copy (h : SameTree disk disk') (cwd : Location) (source target : String) :
    (disk'.copy cwd source target).1 = (disk.copy cwd source target).1 ∧
      SameTree (disk.copy cwd source target).2 (disk'.copy cwd source target).2 := by
  cases h.copiesAlike cwd source target with
  | kept outcome hcopy hcopy' _ =>
    rw [hcopy, hcopy']
    exact ⟨rfl, h⟩
  | written goal entry hgoal hcopy hcopy' =>
    have hbelow := ne_nil_of_destination hgoal
    rw [hcopy, hcopy']
    refine ⟨rfl, fun l => ?_⟩
    rw [get?_put _ hbelow, get?_put _ hbelow, h l]
  | removed goal error hgoal hcopy hcopy' =>
    have hbelow := ne_nil_of_destination hgoal
    rw [hcopy, hcopy']
    refine ⟨rfl, fun l => ?_⟩
    rw [get?_remove _ hbelow, get?_remove _ hbelow, h l]

theorem differsAt (h : SameTree disk disk') : DiffersAt cwd path disk disk' :=
  ⟨destination_congr (h.locate cwd path), fun l _ => h l⟩

end SameTree

namespace DiffersAt

/-- **A copy over the file at which two disks differ makes them the same**, and goes in the same way
on both, if it finds the same source. -/
theorem copy (h : DiffersAt cwd target disk disk')
    (hfind : disk'.find cwd source = disk.find cwd source) :
    (disk'.copy cwd source target).1 = (disk.copy cwd source target).1 ∧
      ((disk.copy cwd source target).1 = .ok () →
        SameTree (disk.copy cwd source target).2 (disk'.copy cwd source target).2) := by
  cases copiesAlike hfind h.destination with
  | kept outcome hcopy hcopy' hthere =>
    rw [hcopy, hcopy']
    refine ⟨rfl, fun hok l => ?_⟩
    obtain ⟨goal, hgoal, hthere⟩ := hthere hok
    by_cases hl : l = goal
    · rw [hl, hthere]
    · exact h.elsewhere_of_ne hgoal hl
  | written goal entry hgoal hcopy hcopy' =>
    have hbelow := ne_nil_of_destination hgoal
    rw [hcopy, hcopy']
    refine ⟨rfl, fun _ l => ?_⟩
    rw [get?_put _ hbelow, get?_put _ hbelow]
    by_cases hl : l = goal
    · rw [if_pos hl, if_pos hl]
    · rw [if_neg hl, if_neg hl, h.elsewhere_of_ne hgoal hl]
  | removed goal error hgoal hcopy hcopy' =>
    rw [hcopy, hcopy']
    exact ⟨rfl, nofun⟩

end DiffersAt

/-! ## Disks on which every entry stands in a directory -/

/-- Every entry stands in a directory. -/
def IsTree (disk : Disk) : Prop := ∀ e ∈ disk.entries, disk.get? e.1.dropLast = some .directory

instance (disk : Disk) : Decidable disk.IsTree :=
  inferInstanceAs (Decidable (∀ e ∈ disk.entries, _))

theorem IsTree.above (h : disk.IsTree) {l : Location} {name : String}
    (hthere : disk.get? (l ++ [name]) ≠ none) : disk.get? l = some .directory := by
  unfold get? at hthere
  rw [if_neg (List.concat_ne_nil name l)] at hthere
  obtain ⟨entry, hentry⟩ := Option.ne_none_iff_exists'.mp hthere
  obtain ⟨e, he, -⟩ := Option.map_eq_some_iff.mp hentry
  have hlocation : e.1 = l ++ [name] := by simpa using List.find?_some he
  have habove := h e (List.mem_of_find?_eq_some he)
  rwa [hlocation, List.dropLast_concat] at habove

/-- Nothing stands below what is no directory. -/
theorem IsTree.get?_below (h : disk.IsTree) (hgoal : disk.get? goal ≠ some .directory)
    {names : List String} (hnames : names ≠ []) : disk.get? (goal ++ names) = none := by
  induction names using List.reverseRecOn with
  | nil => exact (hnames rfl).elim
  | append_singleton names name ih =>
    refine Classical.byContradiction fun hthere => ?_
    rw [← List.append_assoc] at hthere
    have habove := h.above hthere
    by_cases hlast : names = []
    · rw [hlast, List.append_nil] at habove
      exact hgoal habove
    · rw [ih hlast] at habove
      cases habove

/-- To take the file away at which two disks differ changes nothing else. -/
theorem DiffersAt.remove (h : DiffersAt cwd path disk disk') (htree : disk.IsTree)
    (hgoal : disk'.destination cwd path = .ok goal) :
    DiffersAt cwd path disk (disk'.remove goal) := by
  have hbelow := ne_nil_of_destination hgoal
  rw [h.destination] at hgoal
  refine .of_contents hgoal (fun l hl => ?_) ?_
  · rw [get?_remove _ hbelow]
    split
    · next hprefix =>
      obtain ⟨names, rfl⟩ := hprefix
      have hnames : names ≠ [] := by
        rintro rfl
        exact hl (List.append_nil goal)
      rw [htree.get?_below (get?_of_destination hgoal) hnames]
    · exact h.elsewhere_of_ne hgoal hl
  · rw [get?_remove _ hbelow, if_pos List.prefix_rfl]
    simp

end Disk

end GoldenRun
