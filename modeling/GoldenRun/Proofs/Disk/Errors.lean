import GoldenRun.Proofs.Disk.Trail
import GoldenRun.Proofs.Fixture.Listing
import Mathlib.Data.List.TakeWhile

/-!
# What a failed operation says of a path

An operation that fails names a path, and its fault says what is wrong there.  A call with one path
names the path that is at fault.  A call with two paths names the first of them, whichever is at
fault.

* `isSo_of_read`, `isSo_of_list`: reading and listing name the path that is at fault
* `isSo_of_enter`: entering a directory names the one that was to be left, but the other is at fault
* `isSo_of_copy`: copying names the source; if it is not at fault, the target is
-/

namespace GoldenRun

/-- What a fault says of a path: that nothing is there, that a directory is there, or neither. -/
def DiskFault.IsSo (fault : DiskFault) (disk : Disk) (cwd : Location) (path : String) : Prop :=
  match fault with
  | .notFound => disk.hasEntry cwd path = false
  | .isDirectory => disk.LeadsToDirectory cwd path
  | _ => True

namespace Disk

variable {disk disk' : Disk} {cwd here goal origin : Location} {path source target call p : String}
  {names : List String} {slash : Bool} {fault : DiskFault} {destination : Option String}

/-! ## Absolute paths -/

/-- An absolute path leads to the same place from everywhere. -/
theorem locate_of_isAbsolute (h : Path.isAbsolute path = true) (cwd cwd' : Location) :
    disk.locate cwd path = disk.locate cwd' path := by
  unfold locate
  simp only [h, if_true]

theorem find_of_isAbsolute (h : Path.isAbsolute path = true) (cwd cwd' : Location) :
    disk.find cwd path = disk.find cwd' path := by
  unfold find
  rw [locate_of_isAbsolute h cwd cwd']

theorem destination_of_isAbsolute (h : Path.isAbsolute path = true) (cwd cwd' : Location) :
    disk.destination cwd path = disk.destination cwd' path := by
  unfold Disk.destination
  rw [locate_of_isAbsolute h cwd cwd']

theorem isSo_of_isAbsolute (h : Path.isAbsolute path = true) (cwd cwd' : Location) :
    fault.IsSo disk cwd path ↔ fault.IsSo disk cwd' path := by
  unfold DiskFault.IsSo hasEntry LeadsToDirectory
  rw [find_of_isAbsolute h cwd cwd']

/-! ## Calls with one path -/

/-- No path fails to be found because of a directory. -/
theorem follow_ne_isDirectory : disk.follow slash here names ≠ .error .isDirectory := by
  fun_induction follow disk slash here names <;> simp_all

theorem find_ne_isDirectory : disk.find cwd path ≠ .error .isDirectory := by
  have hlocate : disk.locate cwd path ≠ .error .isDirectory := by
    unfold locate
    dsimp only
    generalize (if Path.isAbsolute path = true then [] else cwd) = start
    split
    · simp
    split
    · simp
    split
    · simp
    · exact follow_ne_isDirectory
  unfold find
  cases h : disk.locate cwd path with
  | error fault => simpa [h] using hlocate
  | ok place => cases place <;> simp

/-- A path that is not found is as the fault says. -/
theorem isSo_of_find (h : disk.find cwd path = .error fault) : fault.IsSo disk cwd path := by
  cases fault with
  | notFound => simp [DiskFault.IsSo, hasEntry, h, Except.toOption]
  | isDirectory => exact absurd h find_ne_isDirectory
  | _ => trivial

/-- **A file that cannot be read is named if the fault lies with its path.** -/
theorem isSo_of_read (h : disk.read cwd path = .error (.failed fault call (some p) destination)) :
    p = path ∧ fault.IsSo disk cwd path := by
  unfold read at h
  split at h
  · cases h
  · cases hfind : disk.find cwd path with
    | ok found =>
      obtain ⟨location, entry⟩ := found
      rw [hfind] at h
      cases entry <;> cases h
    | error fault' =>
      rw [hfind] at h
      cases h
      exact ⟨rfl, isSo_of_find hfind⟩

/-- **A directory that cannot be listed is named.** -/
theorem isSo_of_list (h : disk.list cwd path = .error (.failed fault call (some p) destination)) :
    p = path ∧ fault.IsSo disk cwd path := by
  unfold list at h
  split at h
  · cases h
  · cases hfind : disk.find cwd path with
    | ok found =>
      obtain ⟨location, entry⟩ := found
      rw [hfind] at h
      cases entry with
      | directory => cases h
      | file bytes mark =>
        cases h
        exact ⟨rfl, trivial⟩
    | error fault' =>
      rw [hfind] at h
      cases h
      exact ⟨rfl, isSo_of_find hfind⟩

/-! ## Calls with two paths -/

/-- A directory that cannot be entered is at fault, but the one before it is named. -/
theorem isSo_of_enter (h : disk.enter cwd path = .error (.failed fault call (some p) destination)) :
    p = cwd.path ∧ fault ≠ .isDirectory ∧ fault.IsSo disk cwd path := by
  unfold enter at h
  dsimp only at h
  cases hfind : disk.find cwd (upToNul path) with
  | ok found =>
    obtain ⟨location, entry⟩ := found
    rw [hfind] at h
    cases entry with
    | directory => cases h
    | file bytes mark =>
      cases h
      exact ⟨rfl, by decide, trivial⟩
  | error fault' =>
    rw [hfind] at h
    cases h
    refine ⟨rfl, fun hsame => find_ne_isDirectory (hsame ▸ hfind), ?_⟩
    by_cases hnul : hasNul path = true
    · -- A path with this character leads to nothing.
      cases fault with
      | notFound => simp [DiskFault.IsSo, hasEntry, hnul]
      | isDirectory => exact absurd hfind find_ne_isDirectory
      | _ => trivial
    · rw [upToNul_eq_self fun hmem => hnul (List.contains_iff_mem.mpr hmem)] at hfind
      exact isSo_of_find hfind

/-- A location that is reached through directories only. -/
def Reaches (disk : Disk) (l : Location) : Prop :=
  ∀ above, above <+: l → disk.get? above = some .directory

theorem Reaches.nil (disk : Disk) : disk.Reaches [] := by
  intro above habove
  rw [List.prefix_nil.mp habove]
  rfl

theorem Reaches.dropLast {l : Location} (h : disk.Reaches l) : disk.Reaches l.dropLast :=
  fun above habove => h above (habove.trans (List.dropLast_prefix l))

theorem Reaches.concat {name : String} (h : disk.Reaches here)
    (hnext : disk.get? (here ++ [name]) = some .directory) : disk.Reaches (here ++ [name]) := by
  intro above habove
  rcases List.prefix_concat_iff.mp habove with rfl | habove
  · exact hnext
  · exact h above habove

/-- Names that lead to a directory lead through directories only. -/
theorem reaches_of_mem_trailFrom (hhere : disk.Reaches here)
    (h : disk.follow slash here names = .ok (.present origin .directory)) :
    ∀ l ∈ disk.trailFrom here names, disk.Reaches l := by
  fun_induction follow disk slash here names with
  | case1 => exact fun l hl => absurd hl List.not_mem_nil
  | case2 here rest ih =>
    rw [trailFrom, if_pos rfl]
    exact ih hhere h
  | case3 here rest hdot ih =>
    rw [trailFrom, if_neg hdot, if_pos rfl]
    exact ih hhere.dropLast h
  -- Names that end at a missing entry lead to no directory.
  | case7 => simp at h
  | case9 here name rest hdot hdots hlong next hnext ih =>
    have hentry : disk.get? (here ++ [name]) = some .directory := hnext
    have hreaches := hhere.concat hentry
    rw [trailFrom, if_neg hdot, if_neg hdots, if_pos hentry]
    exact List.forall_mem_cons.mpr ⟨hreaches, ih hreaches h⟩
  | _ => cases h

theorem reaches_of_mem_trail (hsource : Path.isAbsolute source = true)
    (h : disk.locate cwd source = .ok (.present origin .directory)) :
    ∀ l ∈ disk.trail cwd source, disk.Reaches l := by
  unfold locate at h
  unfold trail
  simp only [hsource, if_true] at h ⊢
  split at h
  · cases h
  split at h
  · cases h
  split at h
  · cases h
  · exact List.forall_mem_cons.mpr ⟨.nil disk, reaches_of_mem_trailFrom (.nil disk) h⟩

/-- What is removed where no directory is leaves the way to a directory alone. -/
theorem find_remove_of_directory (hsource : Path.isAbsolute source = true)
    (hfind : disk.find cwd source = .ok (origin, .directory))
    (hgoal : disk.get? goal ≠ some .directory) :
    (disk.remove goal).find cwd source = .ok (origin, .directory) := by
  have hlocate : disk.locate cwd source = .ok (.present origin .directory) := by
    unfold find at hfind
    cases h : disk.locate cwd source with
    | error fault => simp [h] at hfind
    | ok place => cases place <;> simp_all
  have hbelow : goal ≠ [] := by
    rintro rfl
    exact hgoal rfl
  rw [← hfind]
  refine find_congr (locate_congr fun l hl => ?_)
  rw [get?_remove disk hbelow, if_neg]
  exact fun hprefix => hgoal (reaches_of_mem_trail hsource hlocate l hl goal hprefix)

/-- **A copy that fails names the source; if that is not at fault, then the target is.** -/
theorem isSo_of_copy (hsource : Path.isAbsolute source = true)
    (h : disk.copy cwd source target =
      (.error (.failed fault call (some p) destination), disk')) :
    p = source ∧ (fault.IsSo disk' cwd source ∨ disk'.destination cwd target = .error fault) := by
  by_cases hnul : hasNul source = true
  · rw [copy_of_nul_source hnul] at h
    cases h
  by_cases hnul' : hasNul target = true
  · rw [copy_of_nul_target hnul hnul'] at h
    cases h
  cases hfind : disk.find cwd source with
  | error fault' =>
    rw [copy_of_find_error hnul hnul' hfind] at h
    cases h
    exact ⟨rfl, .inl (isSo_of_find hfind)⟩
  | ok found =>
    obtain ⟨origin, entry⟩ := found
    cases hgoal : disk.destination cwd target with
    | error fault' =>
      rw [copy_of_destination_error hnul hnul' hfind hgoal] at h
      cases h
      exact ⟨rfl, .inr hgoal⟩
    | ok goal =>
      cases entry with
      | file bytes mark =>
        rw [copy_of_file hnul hnul' hfind hgoal] at h
        cases h
      | directory =>
        rw [copy_of_directory hnul hnul' hfind hgoal] at h
        cases h
        exact ⟨rfl, .inl ⟨origin,
          find_remove_of_directory hsource hfind (get?_of_destination hgoal)⟩⟩

end Disk

end GoldenRun
