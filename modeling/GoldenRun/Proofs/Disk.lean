import GoldenRun.Disk.Operations
import Mathlib.Data.List.TakeWhile

/-!
# Copies on a disk

* `locate_of_directories`: a path leads to the same location wherever the directories of a disk are
  still there
* `copy_ok`: after a copy, source and target hold the same bytes, the target is still the same
  location, and no other location has changed
* `copy_error`: a copy that fails changes nothing, except that of a directory: that takes the target
  away
* `DiffersAt`: disks that differ at most in the file that a path leads to
-/

namespace GoldenRun

open GoldenRun.Text

namespace Place

/-- The location of a file that can be written, be it there or not. -/
def goal? : Place → Option Location
  | .present location (.file _ _) => some location
  | .absent location false => some location
  | _ => none

/-- What a place says of files is so on a disk. -/
def Holds (disk : Disk) : Place → Prop
  | .present location (.file bytes mark) => disk.get? location = some (.file bytes mark)
  | .absent location _ => disk.get? location = none
  | .present _ .directory => True

/-- A file that can be written is there, or it is absent and the path does not end in a slash. -/
theorem eq_of_goal {place : Place} {goal : Location} (h : place.goal? = some goal) :
    (∃ bytes mark, place = .present goal (.file bytes mark)) ∨ place = .absent goal false := by
  unfold goal? at h
  split at h
  · obtain rfl := Option.some.inj h
    exact .inl ⟨_, _, rfl⟩
  · obtain rfl := Option.some.inj h
    exact .inr rfl
  · cases h

end Place

namespace Disk

variable {disk disk' : Disk} {cwd here goal origin : Location} {path : String}
  {names : List String} {slash : Bool} {place place' : Place} {bytes : Bytes} {mark : Bool}

/-! ## Where a path ends -/

/-- The system sees a path without NUL as it is. -/
theorem upToNul_eq_self (h : '\x00' ∉ path.toList) : upToNul path = path := by
  unfold upToNul
  rw [List.takeWhile_eq_self_iff.mpr, String.ofList_toList]
  intro c hc
  simpa using fun hnul : c = '\x00' => h (hnul ▸ hc)

theorem not_mem_upToNul (path : String) : '\x00' ∉ (upToNul path).toList := by
  intro hmem
  rw [upToNul, String.toList_ofList] at hmem
  simpa using List.mem_takeWhile_imp hmem

/-- Names lead to what is there. -/
theorem holds_of_follow (h : disk.follow slash here names = .ok place) : place.Holds disk := by
  fun_induction follow disk slash here names with
  | case1 => cases h; trivial
  | case2 here rest ih => exact ih h
  | case3 here rest _ ih => exact ih h
  | case5 here name _ _ _ next hnext => cases h; exact hnext
  | case7 here name rest _ _ _ next bytes mark hnext hlast => cases h; exact hnext
  | case9 here name rest _ _ _ next hnext ih => exact ih h
  | _ => cases h

/-- The last name leads to a file or to nothing, whichever is there. -/
theorem follow_last {name : String} (hdot : name ≠ ".") (hdots : name ≠ "..")
    (hlong : ¬ 255 < name.utf8ByteSize) (hthere : place.Holds disk)
    (hgoal : place.goal? = some (here ++ [name])) :
    disk.follow false here [name] = .ok place := by
  rw [follow, if_neg hdot, if_neg hdots, if_neg hlong]
  dsimp only
  rcases Place.eq_of_goal hgoal with ⟨bytes, mark, rfl⟩ | rfl
  · rw [show disk.get? (here ++ [name]) = some (.file bytes mark) from hthere]
    rfl
  · rw [show disk.get? (here ++ [name]) = none from hthere]
    rfl

/-- Where the directories are still there, names lead to what stands at their end now. -/
theorem follow_of_directories
    (hdirectories : ∀ l, disk.get? l = some .directory → disk'.get? l = some .directory)
    (hthere : place'.Holds disk') (hgoal' : place'.goal? = some goal)
    (h : disk.follow slash here names = .ok place) (hgoal : place.goal? = some goal) :
    disk'.follow slash here names = .ok place' := by
  fun_induction follow disk slash here names with
  | case1 => cases h; cases hgoal
  | case2 here rest ih =>
    rw [follow, if_pos rfl]
    exact ih h
  | case3 here rest hdot ih =>
    rw [follow, if_neg hdot, if_pos rfl]
    exact ih h
  | case5 here name hdot hdots hlong next hnext =>
    cases h
    cases slash with
    | true => cases hgoal
    | false =>
      obtain rfl : next = goal := Option.some.inj hgoal
      exact follow_last hdot hdots hlong hthere hgoal'
  | case7 here name rest hdot hdots hlong next bytes mark hnext hlast =>
    cases h
    obtain rfl : next = goal := Option.some.inj hgoal
    obtain ⟨hrest, hslash⟩ := Bool.and_eq_true_iff.mp hlast
    obtain rfl := of_decide_eq_true hrest
    obtain rfl : slash = false := by simpa using hslash
    exact follow_last hdot hdots hlong hthere hgoal'
  | case9 here name rest hdot hdots hlong next hnext ih =>
    have hdirectory : disk'.get? (here ++ [name]) = some .directory := hdirectories _ hnext
    rw [follow, if_neg hdot, if_neg hdots, if_neg hlong]
    simp only [hdirectory]
    exact ih h
  | _ => cases h

/-- What a path leads to is what its names lead to from where it starts. -/
theorem locate_eq_ok_iff :
    disk.locate cwd path = .ok place ↔
      path ≠ "" ∧ path.utf8ByteSize < 4096 ∧
        disk.isDirectory (if Path.isAbsolute path then [] else cwd) = true ∧
        disk.follow (path.toList.getLast? = some '/') (if Path.isAbsolute path then [] else cwd)
          ((Path.parts path).filter (· ≠ "")) = .ok place := by
  unfold locate
  dsimp only
  generalize (if Path.isAbsolute path = true then [] else cwd) = start
  by_cases hempty : path = ""
  · simp [hempty]
  rw [if_neg hempty]
  by_cases hlong : 4096 ≤ path.utf8ByteSize
  · simp [hlong, Nat.not_lt.mpr hlong]
  · rw [if_neg hlong]
    cases disk.isDirectory start <;> simp [hempty, Nat.not_le.mp hlong]

/-- A path that leads anywhere gives names to follow from a directory, on any disk that has it. -/
theorem follow_of_locate (h : disk.locate cwd path = .ok place) :
    ∃ start slash names, disk.get? start = some .directory ∧
      disk.follow slash start names = .ok place ∧
      ∀ disk' : Disk, disk'.locate cwd path =
        if disk'.get? start = some .directory then disk'.follow slash start names
        else .error .notFound := by
  obtain ⟨hne, hshort, hstart, hfollow⟩ := locate_eq_ok_iff.mp h
  refine ⟨_, _, _, by simpa [isDirectory] using hstart, hfollow, fun disk' => ?_⟩
  rw [locate, if_neg hne, if_neg (Nat.not_le.mpr hshort), isDirectory]
  by_cases hthere : disk'.get? (if Path.isAbsolute path then [] else cwd) = some .directory
  · simp [hthere]
  · simp [hthere]

/-- Names lead to what is there. -/
theorem holds_of_locate (h : disk.locate cwd path = .ok place) : place.Holds disk := by
  obtain ⟨start, slash, names, -, hfollow, -⟩ := follow_of_locate h
  exact holds_of_follow hfollow

/-- Where the directories are still there, a path leads to what stands at its end now. -/
theorem locate_of_directories
    (hdirectories : ∀ l, disk.get? l = some .directory → disk'.get? l = some .directory)
    (hthere : place'.Holds disk') (hgoal' : place'.goal? = some goal)
    (h : disk.locate cwd path = .ok place) (hgoal : place.goal? = some goal) :
    disk'.locate cwd path = .ok place' := by
  obtain ⟨start, slash, names, hstart, hfollow, hlocate⟩ := follow_of_locate h
  rw [hlocate, if_pos (hdirectories start hstart)]
  exact follow_of_directories hdirectories hthere hgoal' hfollow hgoal

/-! ## Copies that succeed -/

theorem destination_eq_ok_iff :
    disk.destination cwd path = .ok goal ↔
      ∃ place, disk.locate cwd path = .ok place ∧ place.goal? = some goal := by
  unfold destination
  cases hlocate : disk.locate cwd path with
  | error fault => simp
  | ok place =>
    cases place with
    | present location entry => cases entry <;> simp [Place.goal?]
    | absent location slash => cases slash <;> simp [Place.goal?]

theorem find_eq_ok_iff {entry : Entry} :
    disk.find cwd path = .ok (origin, entry) ↔
      disk.locate cwd path = .ok (.present origin entry) := by
  unfold find
  cases hlocate : disk.locate cwd path with
  | error fault => simp
  | ok place => cases place <;> simp

/-- No directory stands where a file can be written. -/
theorem get?_of_destination (h : disk.destination cwd path = .ok goal) :
    disk.get? goal ≠ some .directory := by
  obtain ⟨place, hlocate, hgoal⟩ := destination_eq_ok_iff.mp h
  have hholds := holds_of_locate hlocate
  rcases Place.eq_of_goal hgoal with ⟨bytes, mark, rfl⟩ | rfl
  · rw [show disk.get? goal = some (.file bytes mark) from hholds]
    simp
  · rw [show disk.get? goal = none from hholds]
    simp

theorem ne_nil_of_destination (h : disk.destination cwd path = .ok goal) : goal ≠ [] := by
  rintro rfl
  exact get?_of_destination h (if_pos rfl)

section

variable {source target : String} {entry : Entry} {fault : DiskFault}

theorem copy_of_nul_source (h : hasNul source = true) :
    disk.copy cwd source target = (.error (.nulInPath "src" source), disk) := by
  rw [copy, if_pos h]

theorem copy_of_nul_target (hsource : ¬ hasNul source = true) (h : hasNul target = true) :
    disk.copy cwd source target = (.error (.nulInPath "dest" target), disk) := by
  rw [copy, if_neg hsource, if_pos h]

theorem copy_of_find_error (hsource : ¬ hasNul source = true) (htarget : ¬ hasNul target = true)
    (h : disk.find cwd source = .error fault) :
    disk.copy cwd source target =
      (.error (.failed fault "copyfile" (some source) (some target)), disk) := by
  rw [copy, if_neg hsource, if_neg htarget, h]

theorem copy_of_destination_error (hsource : ¬ hasNul source = true)
    (htarget : ¬ hasNul target = true) (hfound : disk.find cwd source = .ok (origin, entry))
    (h : disk.destination cwd target = .error fault) :
    disk.copy cwd source target =
      (.error (.failed fault "copyfile" (some source) (some target)), disk) := by
  rw [copy, if_neg hsource, if_neg htarget, hfound, h]

theorem copy_of_file (hsource : ¬ hasNul source = true) (htarget : ¬ hasNul target = true)
    (hfound : disk.find cwd source = .ok (origin, .file bytes mark))
    (h : disk.destination cwd target = .ok goal) :
    disk.copy cwd source target =
      (.ok (), if origin = goal then disk else disk.put goal (.file bytes mark)) := by
  rw [copy, if_neg hsource, if_neg htarget, hfound, h]

theorem copy_of_directory (hsource : ¬ hasNul source = true) (htarget : ¬ hasNul target = true)
    (hfound : disk.find cwd source = .ok (origin, .directory))
    (h : disk.destination cwd target = .ok goal) :
    disk.copy cwd source target =
      (.error (.failed .isDirectory "copyfile" (some source) (some target)), disk.remove goal) := by
  rw [copy, if_neg hsource, if_neg htarget, hfound, h]

end

/-- The ways in which a copy can go. -/
theorem copy_cases (disk : Disk) (cwd : Location) (source target : String) :
    (∃ origin bytes mark goal, hasNul source = false ∧ hasNul target = false ∧
        disk.locate cwd source = .ok (.present origin (.file bytes mark)) ∧
        disk.destination cwd target = .ok goal ∧
        disk.copy cwd source target =
          (.ok (), if origin = goal then disk else disk.put goal (.file bytes mark))) ∨
      (∃ error, disk.copy cwd source target = (.error error, disk)) ∨
      ∃ location goal, disk.find cwd source = .ok (location, .directory) ∧
        disk.destination cwd target = .ok goal ∧
        disk.copy cwd source target =
          (.error (.failed .isDirectory "copyfile" (some source) (some target)),
            disk.remove goal) := by
  by_cases hsource : hasNul source = true
  · exact .inr (.inl ⟨_, copy_of_nul_source hsource⟩)
  by_cases htarget : hasNul target = true
  · exact .inr (.inl ⟨_, copy_of_nul_target hsource htarget⟩)
  cases hfound : disk.find cwd source with
  | error fault => exact .inr (.inl ⟨_, copy_of_find_error hsource htarget hfound⟩)
  | ok found =>
    obtain ⟨origin, entry⟩ := found
    cases hgoal : disk.destination cwd target with
    | error fault =>
      exact .inr (.inl ⟨_, copy_of_destination_error hsource htarget hfound hgoal⟩)
    | ok goal =>
      cases entry with
      | directory =>
        exact .inr (.inr ⟨origin, goal, rfl, rfl, copy_of_directory hsource htarget hfound hgoal⟩)
      | file bytes mark =>
        have hcopy := copy_of_file hsource htarget hfound hgoal
        rw [Bool.not_eq_true] at hsource htarget
        exact .inl ⟨origin, bytes, mark, goal, hsource, htarget, find_eq_ok_iff.mp hfound, rfl,
          hcopy⟩

theorem read_of_locate {source : String} (hnul : hasNul source = false)
    (h : disk.locate cwd source = .ok (.present origin (.file bytes mark))) :
    disk.read cwd source = .ok bytes := by
  unfold read
  rw [hnul, find_eq_ok_iff.mpr h]
  rfl

/-- **After a copy the target holds the bytes of the source**, and nothing else has changed. -/
theorem copy_ok {source target : String}
    (h : disk.copy cwd source target = (.ok (), disk')) :
    (∃ bytes, disk'.read cwd source = .ok bytes ∧ disk'.read cwd target = .ok bytes) ∧
      ∃ goal, disk.destination cwd target = .ok goal ∧ disk'.destination cwd target = .ok goal ∧
        ∀ location, location ≠ goal → disk'.get? location = disk.get? location := by
  rcases copy_cases disk cwd source target with
    ⟨origin, bytes, mark, goal, hsource, htarget, hlocate, hgoal, hcopy⟩ | ⟨error, hcopy⟩ |
    ⟨location, goal, -, -, hcopy⟩
  · obtain ⟨place, hplace, hwritten⟩ := destination_eq_ok_iff.mp hgoal
    have hdisk : disk' = if origin = goal then disk else disk.put goal (.file bytes mark) := by
      rw [hcopy] at h
      exact (Prod.mk.inj h).2.symm
    have hget : ∀ l, disk'.get? l = if l = goal then some (.file bytes mark) else disk.get? l := by
      intro l
      rw [hdisk]
      by_cases hsame : origin = goal
      · -- A file copied over itself stands there already.
        have hthere : disk.get? goal = some (.file bytes mark) := hsame ▸ holds_of_locate hlocate
        rw [if_pos hsame]
        by_cases hl : l = goal
        · rw [if_pos hl, hl, hthere]
        · rw [if_neg hl]
      · rw [if_neg hsame]
        exact get?_put _ (ne_nil_of_destination hgoal) _ l
    have hkept : ∀ l, l ≠ goal → disk'.get? l = disk.get? l := by
      intro l hl
      rw [hget, if_neg hl]
    have hfile : disk'.get? goal = some (.file bytes mark) := by
      rw [hget, if_pos rfl]
    have hdirectories : ∀ l, disk.get? l = some .directory → disk'.get? l = some .directory := by
      intro l hl
      rw [hkept l, hl]
      rintro rfl
      exact get?_of_destination hgoal hl
    have htarget' : disk'.locate cwd target = .ok (.present goal (.file bytes mark)) :=
      locate_of_directories hdirectories hfile rfl hplace hwritten
    have hsource' : disk'.locate cwd source = .ok (.present origin (.file bytes mark)) := by
      refine locate_of_directories hdirectories ?_ rfl hlocate rfl
      change disk'.get? origin = some (.file bytes mark)
      by_cases hsame : origin = goal
      · rw [hsame, hfile]
      · rw [hkept origin hsame]
        exact holds_of_locate hlocate
    refine ⟨⟨bytes, read_of_locate hsource hsource', read_of_locate htarget htarget'⟩, goal, hgoal,
      destination_eq_ok_iff.mpr ⟨_, htarget', rfl⟩, hkept⟩
  · rw [hcopy] at h
    cases h
  · rw [hcopy] at h
    cases h

/-! ## Copies that fail -/

/-- A location that is removed is gone with all below it; nothing else changes. -/
theorem get?_remove (disk : Disk) (hbelow : goal ≠ []) (location : Location) :
    (disk.remove goal).get? location =
      if goal <+: location then none else disk.get? location := by
  unfold remove get?
  by_cases hroot : location = []
  · have hprefix : ¬ goal <+: location := by
      rw [hroot, List.prefix_nil]
      exact hbelow
    rw [if_pos hroot, if_neg hprefix, if_pos hroot]
  · rw [if_neg hroot, if_neg hroot, List.find?_filter]
    by_cases hprefix : goal <+: location
    · rw [if_pos hprefix, List.find?_eq_none.mpr]
      · rfl
      · rintro e - he
        simp only [Bool.not_eq_true', decide_eq_true_eq] at he
        rw [he.2, List.isPrefixOf_iff_prefix.mpr hprefix] at he
        cases he.1
    · rw [if_neg hprefix]
      congr 2
      funext e
      by_cases hlocation : e.1 = location
      · have hfalse : goal.isPrefixOf location = false := by
          rw [← Bool.not_eq_true, List.isPrefixOf_iff_prefix]
          exact hprefix
        simp [hlocation, hfalse]
      · simp [hlocation]

/-- Names that led to a location lead to nothing when it is removed. -/
theorem follow_remove (hbelow : goal ≠ []) (h : disk.follow slash here names = .ok place)
    (hgoal : place.goal? = some goal) :
    (disk.remove goal).follow slash here names = .error .notFound ∨
      ∃ l ends, (disk.remove goal).follow slash here names = .ok (.absent l ends) := by
  fun_induction follow disk slash here names with
  | case1 => cases h; cases hgoal
  | case2 here rest ih =>
    rw [follow, if_pos rfl]
    exact ih h
  | case3 here rest hdot ih =>
    rw [follow, if_neg hdot, if_pos rfl]
    exact ih h
  | case5 here name hdot hdots hlong next hnext =>
    have hgone : (disk.remove goal).get? (here ++ [name]) = none := by
      rw [get?_remove disk hbelow, hnext, ite_self]
    rw [follow, if_neg hdot, if_neg hdots, if_neg hlong]
    simp [hgone]
  | case7 here name rest hdot hdots hlong next bytes mark hnext hlast =>
    cases h
    obtain rfl : next = goal := Option.some.inj hgoal
    have hgone : (disk.remove next).get? (here ++ [name]) = none := by
      rw [get?_remove disk hbelow, if_pos List.prefix_rfl]
    have hrest : rest = [] := by simpa using (Bool.and_eq_true_iff.mp hlast).1
    rw [follow, if_neg hdot, if_neg hdots, if_neg hlong]
    simp [hgone, hrest]
  | case9 here name rest hdot hdots hlong next hnext ih =>
    rw [follow, if_neg hdot, if_neg hdots, if_neg hlong]
    by_cases hgone : goal <+: here ++ [name]
    · -- On the way lies a directory that is gone as well.
      have hnone : (disk.remove goal).get? (here ++ [name]) = none := by
        rw [get?_remove disk hbelow, if_pos hgone]
      simp only [hnone]
      by_cases hrest : rest = []
      · rw [if_pos hrest]
        exact .inr ⟨_, _, rfl⟩
      · rw [if_neg hrest]
        exact .inl rfl
    · have hdirectory : (disk.remove goal).get? (here ++ [name]) = some .directory := by
        rw [get?_remove disk hbelow, if_neg hgone]
        exact hnext
      simp only [hdirectory]
      exact ih h
  | _ => cases h

theorem find_remove (h : disk.destination cwd path = .ok goal) :
    (disk.remove goal).find cwd path = .error .notFound := by
  obtain ⟨place, hlocate, hgoal⟩ := destination_eq_ok_iff.mp h
  obtain ⟨start, slash, names, -, hfollow, hagain⟩ := follow_of_locate hlocate
  unfold find
  rw [hagain]
  by_cases hstart : (disk.remove goal).get? start = some .directory
  · rw [if_pos hstart]
    rcases follow_remove (ne_nil_of_destination h) hfollow hgoal with hnone | ⟨l, ends, hnone⟩
    · rw [hnone]
    · rw [hnone]
  · rw [if_neg hstart]

/-- A copy that fails changes nothing, but that of a directory takes the target away. -/
theorem copy_error {source target : String} {error : DiskError}
    (h : disk.copy cwd source target = (.error error, disk')) :
    disk' = disk ∨
      ∃ location goal, disk.find cwd source = .ok (location, .directory) ∧
        disk.destination cwd target = .ok goal ∧
        error = .failed .isDirectory "copyfile" (some source) (some target) ∧
        disk'.find cwd target = .error .notFound ∧
        ∀ l, ¬ goal <+: l → disk'.get? l = disk.get? l := by
  rcases copy_cases disk cwd source target with
    ⟨origin, bytes, mark, goal, -, -, -, -, hcopy⟩ | ⟨error', hcopy⟩ |
    ⟨location, goal, hsource, hgoal, hcopy⟩
  · rw [hcopy] at h
    cases h
  · rw [hcopy] at h
    exact .inl (Prod.mk.inj h).2.symm
  · rw [hcopy] at h
    obtain ⟨herror, rfl⟩ := Prod.mk.inj h
    refine .inr ⟨location, goal, hsource, hgoal, (Except.error.inj herror).symm, find_remove hgoal,
      fun l hl => ?_⟩
    rw [get?_remove disk (ne_nil_of_destination hgoal), if_neg hl]

end Disk

/-! ## Disks that differ at one place -/

/-- Two disks that differ at most at the location of a file that a path leads to. -/
structure Disk.DiffersAt (cwd : Location) (path : String) (disk disk' : Disk) : Prop where
  /-- The path still leads to the same location, if it can be written. -/
  destination : disk'.destination cwd path = disk.destination cwd path
  /-- Nothing has changed at other locations. -/
  elsewhere : ∀ location, disk.destination cwd path ≠ .ok location →
    disk'.get? location = disk.get? location

namespace Disk.DiffersAt

variable {cwd : Location} {path : String} {disk disk' disk'' : Disk}

theorem refl : DiffersAt cwd path disk disk := ⟨rfl, fun _ _ => rfl⟩

theorem elsewhere_of_ne {goal : Location} (h : DiffersAt cwd path disk disk')
    (hgoal : disk.destination cwd path = .ok goal) {l : Location} (hl : l ≠ goal) :
    disk'.get? l = disk.get? l := by
  refine h.elsewhere l fun hl' => hl ?_
  exact Except.ok.inj (hl'.symm.trans hgoal)

theorem trans (h : DiffersAt cwd path disk disk') (h' : DiffersAt cwd path disk' disk'') :
    DiffersAt cwd path disk disk'' where
  destination := h'.destination.trans h.destination
  elsewhere location hlocation := by
    rw [h'.elsewhere location (by rwa [h.destination]), h.elsewhere location hlocation]

theorem of_copy {source : String} (h : disk.copy cwd source path = (.ok (), disk')) :
    DiffersAt cwd path disk disk' := by
  obtain ⟨-, goal, hgoal, hgoal', hkept⟩ := copy_ok h
  refine ⟨hgoal'.trans hgoal.symm, fun location hlocation => hkept location ?_⟩
  rintro rfl
  exact hlocation hgoal

/-- They may differ in whether a file is there, and in what it holds. -/
theorem of_contents {goal : Location} (hgoal : disk.destination cwd path = .ok goal)
    (hkept : ∀ location, location ≠ goal → disk'.get? location = disk.get? location)
    (hfile : disk'.get? goal ≠ some .directory) : DiffersAt cwd path disk disk' := by
  have hdirectories : ∀ l, disk.get? l = some .directory → disk'.get? l = some .directory := by
    intro l hl
    rw [hkept l, hl]
    rintro rfl
    exact get?_of_destination hgoal hl
  obtain ⟨place, hlocate, hwritten⟩ := destination_eq_ok_iff.mp hgoal
  have hgoal' : disk'.destination cwd path = .ok goal := by
    cases hthere : disk'.get? goal with
    | none =>
      have hlocate' : disk'.locate cwd path = .ok (.absent goal false) :=
        locate_of_directories hdirectories hthere rfl hlocate hwritten
      exact destination_eq_ok_iff.mpr ⟨_, hlocate', rfl⟩
    | some entry =>
      cases entry with
      | directory => exact (hfile hthere).elim
      | file bytes mark =>
        have hlocate' : disk'.locate cwd path = .ok (.present goal (.file bytes mark)) :=
          locate_of_directories hdirectories hthere rfl hlocate hwritten
        exact destination_eq_ok_iff.mpr ⟨_, hlocate', rfl⟩
  refine ⟨hgoal'.trans hgoal.symm, fun location hlocation => hkept location ?_⟩
  rintro rfl
  exact hlocation hgoal

end Disk.DiffersAt

end GoldenRun
