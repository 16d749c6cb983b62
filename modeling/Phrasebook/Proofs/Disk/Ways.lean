import Phrasebook.Proofs.Disk.Resolve

/-!
# Ways along paths

Following a path looks at the locations that it passes through and at no others.  Two disks that
hold the same on the whole way of a path therefore give the same answers about it, failures
included.  A joined path goes one location further than its base.
-/

namespace Phrasebook

open Outcome

/-- A node without the content that it may have. -/
def Node.bare : Node → Node
  | .file _ => .file []
  | .folder => .folder

@[simp]
theorem Node.bare_eq_folder_iff {node : Node} : node.bare = .folder ↔ node = .folder := by
  cases node <;> simp [Node.bare]

namespace Disk

/-- What a location holds, without the content that it may have. -/
def bare? (disk : Disk) (location : Location) : Option Node :=
  (disk.node? location).map Node.bare

@[simp]
theorem bare?_eq_none_iff
    {disk : Disk}
    {location : Location} :
    disk.bare? location = none ↔ disk.node? location = none :=
  Option.map_eq_none_iff

@[simp]
theorem bare?_eq_folder_iff
    {disk : Disk}
    {location : Location} :
    disk.bare? location = some .folder ↔ disk.node? location = some .folder := by
  simp [bare?]

theorem exists_file_iff
    {disk : Disk}
    {location : Location} :
    (∃ content, disk.node? location = some (.file content)) ↔
      disk.bare? location = some (.file []) := by
  rw [bare?]
  cases disk.node? location with
  | none => simp
  | some node => cases node <;> simp [Node.bare]

/-- Two disks hold nodes of the same kind at a location, or nothing. -/
def SameShapeAt (first second : Disk) (location : Location) : Prop :=
  second.bare? location = first.bare? location

/-- The location that a path leads to, if it leads anywhere. -/
def target (disk : Disk) (path : Path) : Location :=
  path.components.foldl Component.follow disk.here

/-- Where a piece of a path leads from a location. -/
def beyond (location : Location) (piece : Bytes) : Location :=
  (Path.innerComponent? piece).toList.foldl Component.follow location

/-- The locations that pieces of a path pass through. -/
def way (location : Location) : List Bytes → List Location
  | [] => [location]
  | piece :: rest => location :: way (beyond location piece) rest

/-- Two disks hold the same on the whole way of a path. -/
structure AlikeAlong (first second : Disk) (path : Path) : Prop where
  /-- The working folders are the same. -/
  here : second.here = first.here
  /-- What is passed on the way is the same. -/
  nodes : ∀ location ∈ way (first.startOf path) (Text.splitAt Path.slash path.bytes),
    second.node? location = first.node? location

/-- Two disks hold nodes of the same kinds on the whole way of a path. -/
structure SameShapeAlong (first second : Disk) (path : Path) : Prop where
  /-- The working folders are the same. -/
  here : second.here = first.here
  /-- What is passed on the way is of the same kind. -/
  shapes : ∀ location ∈ way (first.startOf path) (Text.splitAt Path.slash path.bytes),
    SameShapeAt first second location

/-- A piece behind others adds the location that it leads to. -/
theorem mem_way_append
    {location reached : Location}
    {front : List Bytes}
    {piece : Bytes} :
    reached ∈ way location (front ++ [piece]) ↔
      reached ∈ way location front ∨ reached = beyond (front.foldl beyond location) piece := by
  induction front generalizing location with
  | nil => simp [way]
  | cons first front ih => simp [way, ih, or_assoc]

theorem mem_way_of_follow
    {disk : Disk}
    {location last : Location}
    {pieces : List Bytes}
    (followed : disk.follow location pieces = .ok last) :
    last ∈ way location pieces := by
  induction pieces generalizing location with
  | nil => simpa [follow, way, eq_comm] using followed
  | cons piece pieces ih =>
      rw [follow] at followed
      obtain ⟨_, -, followed⟩ := bind_eq_ok_iff.mp followed
      obtain ⟨next, taken, followed⟩ := bind_eq_ok_iff.mp followed
      rw [step_eq_ok taken] at followed
      exact List.mem_cons_of_mem location (ih followed)

/-- Pieces that can be followed pass through folders up to their last location. -/
theorem folder_of_mem_way
    {disk : Disk}
    {location last passed : Location}
    {pieces : List Bytes}
    (followed : disk.follow location pieces = .ok last)
    (member : passed ∈ way location pieces) :
    passed = last ∨ disk.node? passed = some .folder := by
  induction pieces generalizing location with
  | nil =>
      rw [follow, Except.ok.injEq] at followed
      exact .inl ((List.mem_singleton.mp member).trans followed)
  | cons piece pieces ih =>
      rw [follow] at followed
      obtain ⟨_, expected, followed⟩ := bind_eq_ok_iff.mp followed
      obtain ⟨next, taken, followed⟩ := bind_eq_ok_iff.mp followed
      rcases List.mem_cons.mp member with rfl | later
      · refine .inr ?_
        unfold expectFolder at expected
        split at expected <;> simp_all
      · rw [beyond, ← step_eq_ok taken] at later
        exact ih followed later

theorem foldl_beyond
    (location : Location)
    (pieces : List Bytes) :
    pieces.foldl beyond location =
      (pieces.filterMap Path.innerComponent?).foldl Component.follow location := by
  induction pieces generalizing location with
  | nil => rfl
  | cons piece pieces ih =>
      rw [List.foldl_cons, ih, beyond]
      cases meaning : Path.innerComponent? piece <;> simp [meaning]

theorem target_eq_foldl_beyond
    (disk : Disk)
    {path : Path}
    (nonempty : path.bytes ≠ []) :
    disk.target path = (Text.splitAt Path.slash path.bytes).foldl beyond (disk.startOf path) := by
  rw [target, foldl_components disk nonempty, foldl_beyond]

variable {name : Bytes}

/-- A path that ends with a name leads to something of that name. -/
theorem exists_target_of_fileName?
    (disk : Disk)
    {path : Path}
    (named : path.fileName? = some name) :
    ∃ front, disk.target path = front ++ [name] := by
  unfold Path.fileName? at named
  split at named
  next last ending =>
    rw [Option.some.injEq] at named
    subst named
    obtain ⟨components, whole⟩ := List.getLast?_eq_some_iff.mp ending
    refine ⟨components.foldl Component.follow disk.here, ?_⟩
    rw [target, whole, List.foldl_concat]
    rfl
  next => cases named

/-- A joined path leads one location further. -/
theorem target_join
    (disk : Disk)
    (base : Path)
    (plain : Path.IsPlainName name) :
    disk.target (base.join name) = disk.target base ++ [name] := by
  rw [target, Path.components_join base plain, List.foldl_append]
  rfl

theorem target_join_join
    (disk : Disk)
    (base : Path)
    {inner : Bytes}
    (plain : Path.IsPlainName name)
    (plainInner : Path.IsPlainName inner) :
    disk.target ((base.join name).join inner) = disk.target base ++ [name, inner] := by
  rw [target_join disk _ plainInner, target_join disk base plain, List.append_assoc]
  rfl

theorem beyond_of_isPlainName
    (plain : Path.IsPlainName name)
    (location : Location) :
    beyond location name = location ++ [name] := by
  rw [beyond, Path.innerComponent?_of_isPlainName plain]
  rfl

theorem mem_way_join
    (disk : Disk)
    {base : Path}
    (plain : Path.IsPlainName name)
    {passed : Location}
    (member : passed ∈ way (disk.startOf (base.join name))
      (Text.splitAt Path.slash (base.join name).bytes)) :
    passed ∈ way (disk.startOf base) (Text.splitAt Path.slash base.bytes) ∨
      passed = disk.target (base.join name) := by
  obtain ⟨front, joined, original⟩ := Path.splitAt_join base plain
  have nonempty := Path.bytes_join_ne_nil base plain
  have start : disk.startOf (base.join name) = disk.startOf base := by
    rw [startOf, startOf, Path.isAbsolute_join base plain.head?_ne]
  rw [target_eq_foldl_beyond disk nonempty, joined, List.foldl_concat, start]
  rw [joined, start, mem_way_append] at member
  refine member.imp_left fun early => ?_
  rcases original with ⟨same, -⟩ | longer
  · rwa [same]
  · rw [longer, mem_way_append]
    exact .inl early

namespace AlikeAlong

variable {first second : Disk} {path base : Path}

theorem refl (disk : Disk) (path : Path) : AlikeAlong disk disk path :=
  ⟨rfl, fun _ _ => rfl⟩

theorem startOf (alike : AlikeAlong first second path) (other : Path) :
    second.startOf other = first.startOf other := by
  rw [Disk.startOf, Disk.startOf, alike.here]

/-- Disks that are alike along a path are alike along a joined one if its end is the same. -/
theorem join
    (alike : AlikeAlong first second base)
    (plain : Path.IsPlainName name)
    (same : second.node? (first.target base ++ [name]) =
      first.node? (first.target base ++ [name])) :
    AlikeAlong first second (base.join name) := by
  refine ⟨alike.here, fun passed member => ?_⟩
  rcases mem_way_join first plain member with early | rfl
  · exact alike.nodes passed early
  · rwa [target_join first base plain]

/-- Disks are alike along the way that names go on from a path, if they hold the same on it. -/
theorem foldl_join_of_same
    {names : Location}
    (alike : AlikeAlong first second base)
    (plain : ∀ name ∈ names, Path.IsPlainName name)
    (same : ∀ front, front <+: names →
      second.node? (first.target base ++ front) = first.node? (first.target base ++ front)) :
    AlikeAlong first second (names.foldl Path.join base) := by
  induction names generalizing base with
  | nil => exact alike
  | cons name names ih =>
      obtain ⟨plainHere, plain⟩ := List.forall_mem_cons.mp plain
      have sameHere := same [name] (List.cons_prefix_cons.mpr ⟨rfl, List.nil_prefix⟩)
      refine ih (alike.join plainHere sameHere) plain fun front isFront => ?_
      rw [target_join first base plainHere, List.append_assoc, List.singleton_append]
      exact same (name :: front) (List.cons_prefix_cons.mpr ⟨rfl, isFront⟩)

/-- Where a path leads to the same node at the same location, its way is the same. -/
theorem of_same_find
    (here : second.here = first.here)
    {location : Location}
    {node : Node}
    (found : first.find path = .ok (location, node))
    (foundOther : second.find path = .ok (location, node)) :
    AlikeAlong first second path := by
  refine ⟨here, fun passed member => ?_⟩
  obtain ⟨-, followed, present⟩ := find_eq_ok_iff.mp found
  obtain ⟨-, followedOther, presentOther⟩ := find_eq_ok_iff.mp foundOther
  rcases folder_of_mem_way followed member with rfl | folder
  · rw [present, presentOther]
  · rw [Disk.startOf, ← here, ← Disk.startOf] at member
    rcases folder_of_mem_way followedOther member with rfl | folderOther
    · rw [present, presentOther]
    · rw [folder, folderOther]

/-- Disks with the same folders on the way of a path to a folder are alike along it. -/
theorem of_find
    (here : second.here = first.here)
    {location : Location}
    (found : first.find path = .ok (location, .folder))
    (kept : ∀ folder, first.node? folder = some .folder → second.node? folder = some .folder) :
    AlikeAlong first second path := by
  refine ⟨here, fun passed member => ?_⟩
  obtain ⟨-, followed, present⟩ := find_eq_ok_iff.mp found
  have folder : first.node? passed = some .folder := by
    rcases folder_of_mem_way followed member with rfl | folder
    · exact present
    · exact folder
  rw [folder, kept passed folder]

end AlikeAlong

theorem AlikeAlong.sameShape
    {first second : Disk}
    {path : Path}
    (alike : AlikeAlong first second path) :
    SameShapeAlong first second path :=
  ⟨alike.here, fun location member => congrArg (Option.map Node.bare) (alike.nodes location member)⟩

theorem expectFolder_congr
    {first second : Disk}
    {location : Location}
    (same : SameShapeAt first second location) :
    second.expectFolder location = first.expectFolder location := by
  unfold SameShapeAt bare? at same
  unfold expectFolder
  split <;> split <;> simp_all [Node.bare]

/-- Pieces are followed alike past nodes of the same kinds. -/
theorem follow_congr
    {first second : Disk}
    {location : Location}
    {pieces : List Bytes}
    (same : ∀ passed ∈ way location pieces, SameShapeAt first second passed) :
    second.follow location pieces = first.follow location pieces := by
  induction pieces generalizing location with
  | nil => rfl
  | cons piece pieces ih =>
      rw [follow, follow, expectFolder_congr (same location List.mem_cons_self)]
      refine bind_congr fun _ => ?_
      cases taken : step location piece with
      | error cause => rfl
      | ok next =>
          refine ih fun passed member => same passed (List.mem_cons_of_mem location ?_)
          rwa [beyond, ← step_eq_ok taken]

/-- What is read at a path depends on what it leads to. -/
theorem readLossy_congr_of_find
    {first second : Disk}
    {path : Path}
    (found : second.find path = first.find path)
    (access : Access) :
    second.readLossy access path = first.readLossy access path := by
  unfold readLossy readBytes
  rw [found]

/-- Paths lead nowhere for the same cause, or to nodes of the same kind at the same location. -/
inductive AlikeFound :
    Except SystemError (Location × Node) → Except SystemError (Location × Node) → Prop where
  /-- Neither leads anywhere. -/
  | failed (cause : SystemError) : AlikeFound (.error cause) (.error cause)
  /-- Both lead to a node. -/
  | found
      (location : Location)
      {node other : Node}
      (shape : other.bare = node.bare) :
      AlikeFound (.ok (location, node)) (.ok (location, other))

section Shape

variable {first second : Disk} {path : Path} (shaped : SameShapeAlong first second path)

include shaped

/-- A path past nodes of the same kinds leads to a node of the same kind. -/
theorem find_alike : AlikeFound (first.find path) (second.find path) := by
  have followed := follow_congr shaped.shapes
  have start : second.startOf path = first.startOf path := by rw [startOf, startOf, shaped.here]
  unfold find
  rw [start, followed]
  cases accept path with
  | error cause => exact .failed cause
  | ok =>
      simp only [bind, Except.bind]
      cases reached : first.follow (first.startOf path) (Text.splitAt Path.slash path.bytes) with
      | error cause => exact .failed cause
      | ok last =>
          have same := shaped.shapes last (mem_way_of_follow reached)
          unfold SameShapeAt bare? at same
          simp only
          generalize first.node? last = one at same ⊢
          generalize second.node? last = other at same ⊢
          cases one <;> cases other <;> simp at same
          · exact .failed .notFound
          · exact .found last same

/-- A path past nodes of the same kinds leads to the same if its end is the same. -/
theorem find_congr_of_sameShape
    (same : second.node? (first.target path) = first.node? (first.target path)) :
    second.find path = first.find path := by
  have alike := find_alike shaped
  generalize found : first.find path = one at alike ⊢
  generalize foundSecond : second.find path = other at alike ⊢
  cases alike with
  | failed cause => rfl
  | found location shape =>
      obtain ⟨reached, present⟩ := find_eq_ok found
      rw [target, ← reached, present, (find_eq_ok foundSecond).2] at same
      rw [Option.some.inj same]

theorem holds_congr_of_sameShape : second.holds path = first.holds path := by
  have found := find_alike shaped
  unfold holds
  generalize first.find path = one at found ⊢
  generalize second.find path = other at found ⊢
  cases found <;> rfl

theorem holdsFile_congr_of_sameShape : second.holdsFile path = first.holdsFile path := by
  have found := find_alike shaped
  unfold holdsFile
  generalize first.find path = one at found ⊢
  generalize second.find path = other at found ⊢
  cases found with
  | failed cause => rfl
  | @found location node other shape => cases node <;> cases other <;> simp_all [Node.bare]

theorem holdsFolder_congr_of_sameShape : second.holdsFolder path = first.holdsFolder path := by
  have found := find_alike shaped
  unfold holdsFolder
  generalize first.find path = one at found ⊢
  generalize second.find path = other at found ⊢
  cases found with
  | failed cause => rfl
  | @found location node other shape => cases node <;> cases other <;> simp_all [Node.bare]

end Shape

section Alike

variable {first second : Disk} {path : Path} (alike : AlikeAlong first second path)

include alike

/-- A path leads to the same on disks that are alike along it. -/
theorem find_congr : second.find path = first.find path := by
  have followed := follow_congr alike.sameShape.shapes
  unfold find
  rw [alike.startOf, followed]
  refine bind_congr fun _ => ?_
  cases reached : first.follow (first.startOf path) (Text.splitAt Path.slash path.bytes) with
  | error cause => rfl
  | ok last =>
      have same := alike.nodes last (mem_way_of_follow reached)
      simp only [bind, Except.bind, same]

theorem holdsFile_congr : second.holdsFile path = first.holdsFile path :=
  holdsFile_congr_of_sameShape alike.sameShape

theorem holdsFolder_congr : second.holdsFolder path = first.holdsFolder path :=
  holdsFolder_congr_of_sameShape alike.sameShape

theorem readLossy_congr (access : Access) :
    second.readLossy access path = first.readLossy access path :=
  readLossy_congr_of_find (find_congr alike) access

end Alike

end Disk
end Phrasebook
