import Phrasebook.Proofs.Disk.Footprint
import Phrasebook.Proofs.Path.Parents

/-!
# Trails of paths

The trail of a path is what it passes through, from where it starts to where it leads.  The paths
above a path and the folder in which it wants a file pass through nothing else, so two disks that
agree on the trail of a path agree on theirs too.
-/

namespace Phrasebook

namespace Disk

variable {disk : Disk} {path : Path}

/-- The locations that a path passes through, from where it starts to where it leads. -/
def trail (disk : Disk) (path : Path) : List Location :=
  way (disk.startOf path) (Text.splitAt Path.slash path.bytes)

theorem start_mem_way (location : Location) (pieces : List Bytes) :
    location ∈ way location pieces := by
  cases pieces with
  | nil => exact List.mem_singleton_self location
  | cons piece pieces => exact List.mem_cons_self

theorem mem_way_append_left
    {location passed : Location}
    {front : List Bytes}
    (behind : List Bytes)
    (member : passed ∈ way location front) :
    passed ∈ way location (front ++ behind) := by
  induction front generalizing location with
  | nil =>
      rw [List.mem_singleton.mp member]
      exact start_mem_way location behind
  | cons piece front ih =>
      rcases List.mem_cons.mp member with rfl | later
      · exact List.mem_cons_self
      · exact List.mem_cons_of_mem location (ih later)

theorem last_mem_way (location : Location) (pieces : List Bytes) :
    pieces.foldl beyond location ∈ way location pieces := by
  induction pieces generalizing location with
  | nil => exact List.mem_singleton_self location
  | cons piece pieces ih => exact List.mem_cons_of_mem location (ih (beyond location piece))

/-- A path passes through the location that it leads to. -/
theorem target_mem_trail
    (disk : Disk)
    (path : Path) :
    disk.target path ∈ disk.trail path := by
  by_cases nonempty : path.bytes = []
  · obtain ⟨text⟩ := path
    simp only at nonempty
    subst nonempty
    exact List.mem_cons_self
  · rw [target_eq_foldl_beyond disk nonempty]
    exact last_mem_way _ _

/-- A joined path passes through every location that its base passes through. -/
theorem mem_trail_join
    {name : Bytes}
    (plain : Path.IsPlainName name)
    {location : Location}
    (member : location ∈ disk.trail path) :
    location ∈ disk.trail (path.join name) := by
  obtain ⟨front, joined, original⟩ := Path.splitAt_join path plain
  rw [trail, joined, startOf, Path.isAbsolute_join path plain.head?_ne, ← startOf]
  apply mem_way_append_left
  rcases original with ⟨same, -⟩ | longer
  · rwa [trail, same] at member
  · rw [trail, longer, mem_way_append] at member
    rcases member with early | rfl
    · exact early
    · exact last_mem_way _ front

/-- A path passes through every location that its parent passes through. -/
theorem mem_trail_of_parent?
    {parent : Path}
    (above : path.parent? = some parent)
    {location : Location}
    (member : location ∈ disk.trail parent) :
    location ∈ disk.trail path := by
  obtain ⟨front, behind, whole, rfl, rooted⟩ := Path.exists_front_of_parent? above
  by_cases empty : front = []
  · -- Nothing is left in front, so both paths start in the working folder.
    have relative : path.isAbsolute = false := by
      rw [← Bool.not_eq_true]
      exact fun absolute => rooted absolute empty
    subst empty
    have start : disk.startOf path = disk.here := by
      rw [startOf, relative]
      rfl
    have alone : disk.trail (Path.ofParts []) = [disk.here, disk.here] := rfl
    have same : location = disk.startOf path := by simpa [alone, start] using member
    rw [same]
    exact start_mem_way _ _
  · have start : disk.startOf (Path.ofParts front) = disk.startOf path := by
      rw [startOf, startOf, Path.isAbsolute_ofParts whole empty]
    by_cases root : ∃ piece, front = [(piece, some .root)]
    · obtain ⟨piece, rfl⟩ := root
      have alone : disk.trail (Path.ofParts [(piece, some .root)]) = [[], [], []] := rfl
      have rootStart : disk.startOf path = [] := start.symm.trans rfl
      have same : location = disk.startOf path := by simpa [alone, rootStart] using member
      rw [same]
      exact start_mem_way _ _
    · have split := Path.splitAt_ofParts whole empty fun piece same => root ⟨piece, same⟩
      rw [trail, split, start] at member
      rw [trail, ← Path.map_fst_parts, whole, List.map_append]
      exact mem_way_append_left _ member

/-- A path to a file passes through every location that the folder around it passes through. -/
theorem mem_trail_of_folderAround
    {name : Bytes}
    (named : path.fileName? = some name)
    {location : Location}
    (member : location ∈ disk.trail (folderAround path)) :
    location ∈ disk.trail path := by
  obtain ⟨parent, above⟩ := Path.exists_parent? named
  refine mem_trail_of_parent? above ?_
  unfold folderAround at member
  rw [above] at member
  simp only at member
  split at member
  next empty =>
    -- The working folder stands for the path without pieces, and that passes through it.
    obtain ⟨text⟩ := parent
    simp only at empty
    subst empty
    have same : disk.trail ⟨[]⟩ = disk.trail ⟨[Path.dot]⟩ := rfl
    rw [same]
    exact member
  next => exact member

end Disk
end Phrasebook
