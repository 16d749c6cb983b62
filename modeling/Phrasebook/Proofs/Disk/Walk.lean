import Phrasebook.Proofs.Disk.Entries
import Phrasebook.Proofs.Disk.Places

/-!
# Files below folders

Among what a walk meets are the files, and the folders that it cannot list.  Either are found by the
ways that lead to them, each once and in the order of the lists of names; so walks that find the
same find it in the same order.
-/

namespace Phrasebook

open Outcome

namespace Disk

variable
  {disk : Disk}
  {access : Access}
  {path : Path}
  {folder names : Location}
  {name : Bytes}

/-! ## Files and closed folders -/

theorem isFileAt_iff : disk.isFileAt folder = true ↔
    ∃ content, disk.node? folder = some (.file content) := by
  unfold isFileAt
  split
  next content found => exact iff_of_true rfl ⟨content, found⟩
  next noFile => exact iff_of_false Bool.false_ne_true fun found => noFile _ found.choose_spec

theorem closedAt?_eq_some_iff {met : Location} {cause : SystemError} :
    disk.closedAt? access path folder met = some (names, cause) ↔
      met = names ∧ disk.node? (folder ++ names) = some .folder ∧
        refusal? access (names.foldl Path.join path) (folder ++ names) = some cause := by
  unfold closedAt?
  split
  next isFolder =>
    simp only [Option.map_eq_some_iff, Prod.mk.injEq]
    constructor
    · rintro ⟨_, refused, rfl, rfl⟩
      exact ⟨rfl, isFolder, refused⟩
    · rintro ⟨rfl, -, refused⟩
      exact ⟨cause, refused, rfl, rfl⟩
  next noFolder =>
    refine iff_of_false (Option.some_ne_none _).symm ?_
    rintro ⟨rfl, isFolder, -⟩
    exact noFolder isFolder

/-- A walk finds the files to which an open way of visible names leads. -/
theorem mem_filesBelow :
    names ∈ disk.filesBelow access path folder ↔
      names ≠ [] ∧ (∀ name ∈ names, Path.isHidden name = false) ∧ IsOpen access path folder names ∧
        ∃ content, disk.node? (folder ++ names) = some (.file content) := by
  rw [filesBelow, List.mem_filter, mem_entriesBelow, isFileAt_iff]
  constructor
  · rintro ⟨⟨nonempty, visible, isOpen, -⟩, isFile⟩
    exact ⟨nonempty, visible, isOpen, isFile⟩
  · rintro ⟨nonempty, visible, isOpen, content, found⟩
    exact ⟨⟨nonempty, visible, isOpen, by rw [found]; rfl⟩, content, found⟩

/-- A walk finds each file once, in the order of the names that lead to it. -/
theorem pairwise_filesBelow (disk : Disk) (access : Access) (path : Path) (folder : Location) :
    (disk.filesBelow access path folder).Pairwise (· < ·) :=
  (pairwise_entriesBelow disk access path folder).filter _

/-- Walks that find the same among the ways of some kind find them in the same order. -/
theorem filter_filesBelow_congr
    {other : Disk}
    {place : Location}
    {keep : Location → Bool}
    (same : ∀ names, keep names = true →
      (names ∈ other.filesBelow access path place ↔ names ∈ disk.filesBelow access path folder)) :
    (other.filesBelow access path place).filter keep =
      (disk.filesBelow access path folder).filter keep := by
  refine ((pairwise_filesBelow other access path place).filter keep).eq_of_mem_iff
    ((pairwise_filesBelow disk access path folder).filter keep) fun names => ?_
  rw [List.mem_filter, List.mem_filter]
  exact and_congr_left (same names)

/-- The closed folders are those to which an open way of visible names leads. -/
theorem mem_closedBelow {cause : SystemError} :
    (names, cause) ∈ disk.closedBelow access path folder ↔
      (∀ name ∈ names, Path.isHidden name = false) ∧ IsOpen access path folder names ∧
        disk.node? (folder ++ names) = some .folder ∧
          refusal? access (names.foldl Path.join path) (folder ++ names) = some cause := by
  simp only [closedBelow, List.mem_filterMap, closedAt?_eq_some_iff, List.mem_cons,
    mem_entriesBelow]
  constructor
  · rintro ⟨met, rfl | ⟨-, visible, isOpen, -⟩, rfl, isClosed⟩
    · exact ⟨List.forall_mem_nil _, isOpen_nil access path folder, isClosed⟩
    · exact ⟨visible, isOpen, isClosed⟩
  · rintro ⟨visible, isOpen, isClosed⟩
    refine ⟨names, or_iff_not_imp_left.mpr fun nonempty => ⟨nonempty, visible, isOpen, ?_⟩, rfl,
      isClosed⟩
    rw [isClosed.1]
    rfl

/-- A walk meets each closed folder once, in the order of the names that lead to it. -/
theorem pairwise_closedBelow (disk : Disk) (access : Access) (path : Path) (folder : Location) :
    (disk.closedBelow access path folder).Pairwise fun first second => first.1 < second.1 := by
  have increasing : ([] :: disk.entriesBelow access path folder).Pairwise (· < ·) := by
    refine List.pairwise_cons.mpr ⟨fun names member => ?_,
      pairwise_entriesBelow disk access path folder⟩
    obtain ⟨name, rest, rfl⟩ := List.exists_cons_of_ne_nil (mem_entriesBelow.mp member).1
    exact List.nil_lt_cons name rest
  refine List.pairwise_filterMap.mpr (increasing.imp ?_)
  rintro first second less ⟨one, cause⟩ closed ⟨two, causeOther⟩ closedOther
  obtain ⟨rfl, -⟩ := closedAt?_eq_some_iff.mp closed
  obtain ⟨rfl, -⟩ := closedAt?_eq_some_iff.mp closedOther
  exact less

/-- Disks with the same folders behind visible names have the same closed folders. -/
theorem closedBelow_congr
    {other : Disk}
    (same : ∀ names, (∀ name ∈ names, Path.isHidden name = false) →
      (other.node? (folder ++ names) = some .folder ↔
        disk.node? (folder ++ names) = some .folder)) :
    other.closedBelow access path folder = disk.closedBelow access path folder := by
  have : Std.Asymm fun first second : Location × SystemError => first.1 < second.1 :=
    ⟨fun _ _ => KeyOrder.asymm⟩
  refine (pairwise_closedBelow other access path folder).eq_of_mem_iff
    (pairwise_closedBelow disk access path folder) fun ⟨names, cause⟩ => ?_
  rw [mem_closedBelow, mem_closedBelow]
  refine and_congr_right fun visible => ?_
  rw [same names visible]

/-! ## Walks -/

/-- Below a folder that may be read, a walk has the paths of what it finds. -/
theorem walk_of_find
    {root : Path}
    (found : disk.find root = .ok (folder, .folder))
    (access : Access) :
    disk.walk access root = (permit (access.mayRead root) root).map fun _ =>
      { files := (disk.filesBelow access root folder).map fun names => names.foldl Path.join root
        closed := (disk.closedBelow access root folder).map fun (names, cause) =>
          (names.foldl Path.join root, cause) } := by
  unfold walk
  rw [found]
  cases permit (access.mayRead root) root <;> rfl

/-- Where there is no folder, a walk fails. -/
theorem walk_of_not_holdsFolder
    {root : Path}
    (missing : disk.holdsFolder root = false)
    (access : Access) :
    disk.walk access root =
      permit (access.mayRead root) root >>= fun _ => .error (.notAFolder root) := by
  unfold walk
  refine bind_congr fun _ => ?_
  split
  next location found =>
    rw [holdsFolder_iff.mpr ⟨location, found⟩] at missing
    cases missing
  next => rfl

/-- Disks of the same shape along a path have a folder there at one location, or neither has. -/
theorem find_folder_of_sameShape
    {other : Disk}
    {root : Path}
    (shaped : SameShapeAlong disk other root) :
    disk.holdsFolder root = false ∧ other.holdsFolder root = false ∨
      disk.find root = .ok (disk.target root, .folder) ∧
        other.find root = .ok (disk.target root, .folder) := by
  have alike := find_alike shaped
  cases here : disk.holdsFolder root with
  | false => exact .inl ⟨rfl, (holdsFolder_congr_of_sameShape shaped).trans here⟩
  | true =>
      obtain ⟨location, found⟩ := exists_find_of_holdsFolder here
      have reached : location = disk.target root := (find_eq_ok found).1
      rw [found] at alike
      generalize other.find root = outcome at alike ⊢
      cases alike with
      | found _ shape =>
          obtain rfl := Node.bare_eq_folder_iff.mp shape
          rw [← reached]
          exact .inr ⟨found, rfl⟩

/-- A walk depends on the way to its root and on what it finds below it. -/
theorem walk_congr
    {other : Disk}
    {access : Access}
    {root : Path}
    (shaped : SameShapeAlong disk other root)
    (sameFiles : ∀ names, names ∈ other.filesBelow access root (disk.target root) ↔
      names ∈ disk.filesBelow access root (disk.target root))
    (sameClosed : other.closedBelow access root (disk.target root) =
      disk.closedBelow access root (disk.target root)) :
    other.walk access root = disk.walk access root := by
  rcases find_folder_of_sameShape shaped with ⟨noFolder, noFolderOther⟩ | ⟨found, foundOther⟩
  · rw [walk_of_not_holdsFolder noFolder, walk_of_not_holdsFolder noFolderOther]
  · have files := (pairwise_filesBelow other access root (disk.target root)).eq_of_mem_iff
      (pairwise_filesBelow disk access root (disk.target root)) sameFiles
    rw [walk_of_find found, walk_of_find foundOther, files, sameClosed]

/-- Disks with the same folders behind visible names make a walk pass over the same. -/
theorem passedOver_congr
    {other : Disk}
    {root : Path}
    (shaped : SameShapeAlong disk other root)
    (same : ∀ names, (∀ name ∈ names, Path.isHidden name = false) →
      (other.node? (disk.target root ++ names) = some .folder ↔
        disk.node? (disk.target root ++ names) = some .folder))
    (access : Access) :
    other.passedOver access root = disk.passedOver access root := by
  unfold passedOver
  rcases find_folder_of_sameShape shaped with ⟨noFolder, noFolderOther⟩ | ⟨found, foundOther⟩
  · rw [walk_of_not_holdsFolder noFolder, walk_of_not_holdsFolder noFolderOther]
  · rw [walk_of_find found, walk_of_find foundOther, closedBelow_congr same]
    cases permit (access.mayRead root) root <;> rfl

/-! ## Ways to files below folders -/

theorem isPlainName_of_mem_location
    (present : (disk.node? (folder ++ names)).isSome)
    (member : name ∈ names) :
    Path.IsPlainName name := by
  have all := List.all_eq_true.mp (disk.named (folder ++ names) present)
  exact isPlainName_of_isName (all name (List.mem_append_right folder member))

theorem isPlainName_of_mem_filesBelow (below : names ∈ disk.filesBelow access path folder) :
    ∀ name ∈ names, Path.IsPlainName name := by
  obtain ⟨-, -, -, content, present⟩ := mem_filesBelow.mp below
  exact fun name member => isPlainName_of_mem_location (by rw [present]; rfl) member

theorem target_foldl_join
    (disk : Disk)
    (base : Path)
    (plain : ∀ name ∈ names, Path.IsPlainName name) :
    disk.target (names.foldl Path.join base) = disk.target base ++ names := by
  induction names generalizing base with
  | nil => rw [List.append_nil, List.foldl_nil]
  | cons name names ih =>
      obtain ⟨plainHere, plain⟩ := List.forall_mem_cons.mp plain
      rw [List.foldl_cons, ih (base.join name) plain, target_join disk base plainHere,
        List.append_assoc, List.singleton_append]

/-- A walk does not lead to any location twice. -/
theorem nodup_map_target_walk
    {access : Access}
    {root : Path}
    {walk : Walk}
    (walked : disk.walk access root = .ok walk) :
    (walk.files.map disk.target).Nodup := by
  cases held : disk.holdsFolder root with
  | false =>
      rw [walk_of_not_holdsFolder held] at walked
      obtain ⟨_, -, failed⟩ := bind_eq_ok_iff.mp walked
      cases failed
  | true =>
      obtain ⟨folder, found⟩ := exists_find_of_holdsFolder held
      rw [walk_of_find found] at walked
      obtain ⟨_, -, rfl⟩ := map_eq_ok_iff.mp walked
      have reached (names : Location) (below : names ∈ disk.filesBelow access root folder) :
          disk.target (names.foldl Path.join root) = disk.target root ++ names :=
        target_foldl_join disk root (isPlainName_of_mem_filesBelow below)
      rw [List.map_map, Function.comp_def, List.map_congr_left reached]
      exact (pairwise_filesBelow disk access root folder).nodup.map (List.append_right_injective _)

theorem accept_of_accept_foldl_join
    {base : Path}
    (nonempty : base.bytes ≠ [])
    (plain : ∀ name ∈ names, Path.IsPlainName name)
    (accepted : accept (names.foldl Path.join base) = .ok ()) :
    accept base = .ok () := by
  induction names generalizing base with
  | nil => exact accepted
  | cons name names ih =>
      obtain ⟨plainHere, plain⟩ := List.forall_mem_cons.mp plain
      apply accept_of_accept_join plainHere.head?_ne nonempty
      exact ih (Path.bytes_join_ne_nil base plainHere) plain accepted

/-- Below a folder that a path leads to, names that lead to a node make up a path to it. -/
theorem find_foldl_join
    {base : Path}
    {location : Location}
    {node : Node}
    (inFolder : disk.find base = .ok (location, .folder))
    (accepted : accept (names.foldl Path.join base) = .ok ())
    (present : disk.node? (location ++ names) = some node) :
    disk.find (names.foldl Path.join base) = .ok (location ++ names, node) := by
  have isPresent : (disk.node? (location ++ names)).isSome := by
    rw [present]
    rfl
  have plain : ∀ name ∈ names, Path.IsPlainName name := fun name member =>
    isPlainName_of_mem_location isPresent member
  induction names generalizing base location with
  | nil =>
      rw [List.append_nil] at present ⊢
      rw [(find_eq_ok inFolder).2, Option.some.injEq] at present
      rw [← present]
      exact inFolder
  | cons name names ih =>
      obtain ⟨plainHere, plainInside⟩ := List.forall_mem_cons.mp plain
      have acceptedHere : accept (base.join name) = .ok () :=
        accept_of_accept_foldl_join (Path.bytes_join_ne_nil base plainHere) plainInside accepted
      rw [List.append_cons] at present isPresent ⊢
      by_cases alone : names = []
      · subst alone
        rw [List.append_nil] at present ⊢
        exact find_join plainHere inFolder acceptedHere present
      · have folder := folder_of_isSome_append alone isPresent
        exact ih (find_join plainHere inFolder acceptedHere folder) accepted present isPresent
          plainInside

/-- Below a folder that a path leads to, a path of names leads to what is at its location. -/
theorem find_foldl_join_iff
    {base : Path}
    {location place : Location}
    {node : Node}
    (inFolder : disk.find base = .ok (location, .folder))
    (plain : ∀ name ∈ names, Path.IsPlainName name) :
    disk.find (names.foldl Path.join base) = .ok (place, node) ↔
      accept (names.foldl Path.join base) = .ok () ∧ place = location ++ names ∧
        disk.node? place = some node := by
  constructor
  · intro found
    have start : location = disk.target base := (find_eq_ok inFolder).1
    have reached : place = disk.target (names.foldl Path.join base) := (find_eq_ok found).1
    rw [target_foldl_join disk base plain, ← start] at reached
    exact ⟨(find_eq_ok_iff.mp found).1, reached, (find_eq_ok found).2⟩
  · rintro ⟨accepted, rfl, present⟩
    exact find_foldl_join inFolder accepted present

/-- Disks with the same folders below a path are alike on the way to anything that stays there. -/
theorem AlikeAlong.foldl_join
    {first second : Disk}
    {base : Path}
    (alike : AlikeAlong first second base)
    (kept : ∀ inside, first.node? (first.target base ++ inside) = some .folder →
      second.node? (first.target base ++ inside) = some .folder)
    (present : (first.node? (first.target base ++ names)).isSome)
    (same : second.node? (first.target base ++ names) = first.node? (first.target base ++ names)) :
    AlikeAlong first second (names.foldl Path.join base) := by
  induction names generalizing base with
  | nil => exact alike
  | cons name names ih =>
      have plain := isPlainName_of_mem_location present List.mem_cons_self
      have next (inside : Location) :
          first.target base ++ name :: inside = first.target (base.join name) ++ inside := by
        rw [target_join first base plain, List.append_assoc, List.singleton_append]
      have keptNext (inside : Location) := kept (name :: inside)
      simp only [next] at present same keptNext
      refine ih (alike.join plain ?_) keptNext present same
      rw [← target_join first base plain]
      cases names with
      | nil => rwa [List.append_nil] at same
      | cons second rest =>
          have folder := folder_of_isSome_append (List.cons_ne_nil second rest) present
          have stays := keptNext []
          rw [List.append_nil] at stays
          rw [folder, stays folder]

end Disk
end Phrasebook
