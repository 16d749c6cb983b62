import Phrasebook.Proofs.Disk.Places
import Phrasebook.Proofs.Disk.Walk

/-!
# Disks without some files

Files can be taken away from a disk while all folders stay.  A path then still leads to what it led
to, unless that was one of the files, and a walk meets what it met without them, in the same order.
-/

namespace Phrasebook
namespace Disk

/-- The disk without the files at some locations. -/
def withoutFiles (disk : Disk) (gone : Location → Bool) : Disk where
  nodes := disk.nodes.filter fun location =>
    disk.nodes.get? location = some .folder || !gone location
  here := disk.here
  rooted := by simp [disk.rooted]
  closed := by
    intro parent name present
    rw [Dictionary.get?_filter] at present
    split at present
    next => simp [disk.closed parent name present]
    next => simp at present
  named := by
    intro location present
    rw [Dictionary.get?_filter] at present
    split at present
    next => exact disk.named location present
    next => simp at present

variable
  {disk : Disk}
  {gone : Location → Bool}
  {location folder : Location}
  {node : Node}
  {path root : Path}

theorem node?_withoutFiles_iff :
    (disk.withoutFiles gone).node? location = some node ↔
      disk.node? location = some node ∧ (node = .folder ∨ gone location = false) := by
  unfold node? withoutFiles
  rw [Dictionary.get?_filter]
  split
  next stays =>
    simp only [Bool.or_eq_true, decide_eq_true_eq, Bool.not_eq_true'] at stays
    refine ⟨fun present => ⟨present, stays.imp_left fun isFolder => ?_⟩, And.left⟩
    rw [isFolder, Option.some.injEq] at present
    exact present.symm
  next leaves =>
    simp only [Bool.or_eq_true, decide_eq_true_eq, Bool.not_eq_true', not_or] at leaves
    refine iff_of_false (by simp) ?_
    rintro ⟨present, rfl | stays⟩
    · exact leaves.1 present
    · exact leaves.2 stays

@[simp]
theorem folder_withoutFiles_iff :
    (disk.withoutFiles gone).node? location = some .folder ↔
      disk.node? location = some .folder := by
  simp [node?_withoutFiles_iff]

/-- A path leads to what it led to before, if that is still there. -/
theorem find_withoutFiles_iff :
    (disk.withoutFiles gone).find path = .ok (location, node) ↔
      disk.find path = .ok (location, node) ∧ (node = .folder ∨ gone location = false) := by
  constructor
  · intro found
    obtain ⟨present, stays⟩ := node?_withoutFiles_iff.mp (find_eq_ok found).2
    exact ⟨find_of_kept (fun _ isFolder => folder_withoutFiles_iff.mp isFolder) rfl found present,
      stays⟩
  · rintro ⟨found, stays⟩
    exact find_of_kept (fun _ isFolder => folder_withoutFiles_iff.mpr isFolder) rfl found
      (node?_withoutFiles_iff.mpr ⟨(find_eq_ok found).2, stays⟩)

theorem find_folder_withoutFiles_iff :
    (disk.withoutFiles gone).find path = .ok (location, .folder) ↔
      disk.find path = .ok (location, .folder) := by
  simp [find_withoutFiles_iff]

@[simp]
theorem holdsFolder_withoutFiles (disk : Disk) (gone : Location → Bool) (path : Path) :
    (disk.withoutFiles gone).holdsFolder path = disk.holdsFolder path := by
  rw [Bool.eq_iff_iff, holdsFolder_iff, holdsFolder_iff]
  exact exists_congr fun location => find_folder_withoutFiles_iff

theorem holdsFile_withoutFiles (disk : Disk) (gone : Location → Bool) (path : Path) :
    (disk.withoutFiles gone).holdsFile path =
      (disk.holdsFile path && !gone (disk.target path)) := by
  rw [Bool.eq_iff_iff, Bool.and_eq_true, holdsFile_iff, holdsFile_iff, Bool.not_eq_true']
  constructor
  · rintro ⟨location, content, found⟩
    obtain ⟨found, impossible | stays⟩ := find_withoutFiles_iff.mp found
    · cases impossible
    · obtain rfl : location = disk.target path := (find_eq_ok found).1
      exact ⟨⟨_, content, found⟩, stays⟩
  · rintro ⟨⟨location, content, found⟩, stays⟩
    obtain rfl : location = disk.target path := (find_eq_ok found).1
    exact ⟨_, content, find_withoutFiles_iff.mpr ⟨found, .inr stays⟩⟩

/-- A folder lists its names without those of the files that are gone. -/
theorem namesIn_withoutFiles (disk : Disk) (gone : Location → Bool) (folder : Location) :
    (disk.withoutFiles gone).namesIn folder = (disk.namesIn folder).filter fun name =>
      disk.node? (folder ++ [name]) = some .folder || !gone (folder ++ [name]) := by
  refine (pairwise_namesIn _ folder).eq_of_mem_iff ((pairwise_namesIn disk folder).filter _)
    fun name => ?_
  rw [List.mem_filter, mem_namesIn, mem_namesIn, Option.isSome_iff_exists, Option.isSome_iff_exists]
  simp only [node?_withoutFiles_iff, Bool.or_eq_true, decide_eq_true_eq, Bool.not_eq_true']
  constructor
  · rintro ⟨node, present, stays⟩
    refine ⟨⟨node, present⟩, stays.imp_left fun isFolder => ?_⟩
    rw [present, isFolder]
  · rintro ⟨⟨node, present⟩, stays⟩
    refine ⟨node, present, stays.imp_left fun isFolder => ?_⟩
    exact Option.some.inj (present.symm.trans isFolder)

/-- A walk from a folder meets the files that are still there. -/
theorem filesBelow_withoutFiles
    (disk : Disk)
    (gone : Location → Bool)
    (access : Access)
    (path : Path)
    (folder : Location) :
    (disk.withoutFiles gone).filesBelow access path folder =
      (disk.filesBelow access path folder).filter fun names => !gone (folder ++ names) := by
  refine (pairwise_filesBelow _ access path folder).eq_of_mem_iff
    ((pairwise_filesBelow disk access path folder).filter _) fun names => ?_
  simp only [List.mem_filter, mem_filesBelow, node?_withoutFiles_iff, reduceCtorEq, false_or,
    Bool.not_eq_true', exists_and_right, and_assoc]

/-- A walk from a folder cannot list the same folders. -/
theorem closedBelow_withoutFiles
    (disk : Disk)
    (gone : Location → Bool)
    (access : Access)
    (path : Path)
    (folder : Location) :
    (disk.withoutFiles gone).closedBelow access path folder =
      disk.closedBelow access path folder :=
  closedBelow_congr fun _ _ => folder_withoutFiles_iff

/-- A walk meets the files that are still there, in the same order, and the same closed folders. -/
theorem walk_withoutFiles
    (disk : Disk)
    (gone : Location → Bool)
    (access : Access)
    (root : Path) :
    (disk.withoutFiles gone).walk access root =
      (disk.walk access root).map fun walk =>
        { walk with files := walk.files.filter fun path => !gone (disk.target path) } := by
  cases held : disk.holdsFolder root with
  | false =>
      have missing : (disk.withoutFiles gone).holdsFolder root = false := by
        rw [holdsFolder_withoutFiles, held]
      rw [walk_of_not_holdsFolder held, walk_of_not_holdsFolder missing]
      cases permit (access.mayRead root) root <;> rfl
  | true =>
      obtain ⟨location, found⟩ := exists_find_of_holdsFolder held
      obtain rfl : location = disk.target root := (find_eq_ok found).1
      rw [walk_of_find found, walk_of_find (find_folder_withoutFiles_iff.mpr found)]
      cases permit (access.mayRead root) root with
      | error cause => rfl
      | ok =>
          simp only [Except.map, filesBelow_withoutFiles, closedBelow_withoutFiles,
            List.filter_map, Except.ok.injEq, Walk.mk.injEq, and_true]
          refine congrArg (List.map _) (List.filter_congr fun names below => ?_)
          rw [Function.comp_apply,
            target_foldl_join disk root (isPlainName_of_mem_filesBelow below)]

/-- What is read at the path of a file that is still there is the same. -/
theorem readLossy_withoutFiles
    {names : Location}
    (found : disk.find root = .ok (folder, .folder))
    {access : Access}
    (below : names ∈ disk.filesBelow access root folder)
    (stays : gone (folder ++ names) = false) :
    (disk.withoutFiles gone).readLossy access (names.foldl Path.join root) =
      disk.readLossy access (names.foldl Path.join root) := by
  obtain ⟨-, -, -, content, present⟩ := mem_filesBelow.mp below
  obtain rfl : folder = disk.target root := (find_eq_ok found).1
  have presentStill : (disk.withoutFiles gone).node? (disk.target root ++ names) =
      some (.file content) :=
    node?_withoutFiles_iff.mpr ⟨present, .inr stays⟩
  have kept (inside : Location) (isFolder : disk.node? inside = some .folder) :
      (disk.withoutFiles gone).node? inside = some .folder :=
    folder_withoutFiles_iff.mpr isFolder
  have along : AlikeAlong disk (disk.withoutFiles gone) root := .of_find rfl found kept
  refine readLossy_congr (along.foldl_join (fun _ => kept _) ?_ ?_) access
  · rw [present]
    rfl
  · rw [present, presentStill]

end Disk
end Phrasebook
