import GoldenRun.Disk.Basic

/-!
# What has changed on a disk

Two disks are compared entry by entry.  What is gone is named first, so that a file may take the
place of a directory; what is new or different follows in the order of the later disk, in which a
directory stands before what was put into it.
-/

namespace GoldenRun

/-- A step from one disk to another. -/
inductive Change where
  /-- An entry is gone, with all below it. -/
  | removed (location : Location)
  /-- An entry is new or different. -/
  | written (location : Location) (entry : Entry)
  deriving DecidableEq, Repr

namespace Disk

/-- Whether an entry of an earlier disk has to go: nothing stands there any more, or a file stands
where a directory was, or the other way round. -/
def isReplaced (later : Disk) (location : Location) (entry : Entry) : Bool :=
  match entry, later.get? location with
  | .directory, some .directory => false
  | .file _ _, some (.file _ _) => false
  | _, _ => true

/-- The steps from an earlier disk to a later one. -/
def changes (earlier later : Disk) : List Change :=
  (earlier.entries.filter fun e => later.isReplaced e.1 e.2).map (fun e => .removed e.1) ++
  (later.entries.filter fun e => earlier.get? e.1 ≠ some e.2).map fun e => .written e.1 e.2

end Disk

end GoldenRun
