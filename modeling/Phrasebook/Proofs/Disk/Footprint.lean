import Mathlib.Logic.Relation
import Phrasebook.Proofs.Disk.Places

/-!
# Footprints of writing

Whatever an operation does to a disk, it makes folders where nothing was, creates empty files where
nothing was, and gives files a content.  Its footprint bounds where it does each of these, and the
footprint of operations one after the other is that of all of them together.
-/

namespace Phrasebook

/-- A path is above another one when taking parents leads to it; every path is above itself. -/
def Path.IsAbove (above path : Path) : Prop :=
  Relation.ReflTransGen (fun inner outer => inner.parent? = some outer) path above

namespace Disk

/-- Where a disk may be written to, by what may happen there. -/
structure Footprint where
  /-- Folders may be made at these locations. -/
  made : Location → Prop
  /-- Empty files may be created at these locations. -/
  created : Location → Prop
  /-- Files may be given a content at these locations. -/
  written : Location → Prop

namespace Footprint

/-- A footprint is within another one that allows everything that it allows. -/
structure Within (small large : Footprint) : Prop where
  /-- Folders may be made. -/
  made : ∀ location, small.made location → large.made location
  /-- Empty files may be created. -/
  created : ∀ location, small.created location → large.created location
  /-- Files may be given a content. -/
  written : ∀ location, small.written location → large.written location

/-- Only folders may be made. -/
def making (made : Location → Prop) : Footprint :=
  ⟨made, fun _ => False, fun _ => False⟩

/-- Only empty files may be created. -/
def creating (created : Location → Prop) : Footprint :=
  ⟨fun _ => False, created, fun _ => False⟩

/-- Files may only be given a content. -/
def writing (written : Location → Prop) : Footprint :=
  ⟨fun _ => False, fun _ => False, written⟩

end Footprint

/-- What may become of one location within a footprint. -/
inductive Change (footprint : Footprint) (location : Location) :
    Option Node → Option Node → Prop where
  /-- It stays as it is. -/
  | stay (node : Option Node) : Change footprint location node node
  /-- A folder comes where nothing was. -/
  | make
      (allowed : footprint.made location) :
      Change footprint location none (some .folder)
  /-- An empty file comes where nothing was. -/
  | create
      (allowed : footprint.created location) :
      Change footprint location none (some (.file []))
  /-- A file gets a content, whether it was there or not. -/
  | write
      (allowed : footprint.written location)
      {node : Option Node}
      (noFolder : node ≠ some .folder)
      (content : Bytes) :
      Change footprint location node (some (.file content))

namespace Change

variable
  {footprint larger : Footprint}
  {location : Location}
  {before middle after : Option Node}

/-- Two changes of a location are one: what was made or created was not there before. -/
theorem trans
    (first : Change footprint location before middle)
    (second : Change footprint location middle after) :
    Change footprint location before after := by
  cases first with
  | stay => exact second
  | make allowed =>
      cases second with
      | stay => exact .make allowed
      | write _ noFolder => exact absurd rfl noFolder
  | create allowed =>
      cases second with
      | stay => exact .create allowed
      | write allowed _ content => exact .write allowed (by simp) content
  | write allowed noFolder content =>
      cases second with
      | stay => exact .write allowed noFolder content
      | write allowed _ content => exact .write allowed noFolder content

theorem mono
    (change : Change footprint location before after)
    (within : footprint.Within larger) :
    Change larger location before after := by
  cases change with
  | stay => exact .stay before
  | make allowed => exact .make (within.made location allowed)
  | create allowed => exact .create (within.created location allowed)
  | write allowed noFolder content =>
      exact .write (within.written location allowed) noFolder content

end Change

/-- A disk was written to within a footprint. -/
structure Touched (footprint : Footprint) (before after : Disk) : Prop where
  /-- The working folder stays. -/
  here : after.here = before.here
  /-- Every location changes within the footprint. -/
  change : ∀ location, Change footprint location (before.node? location) (after.node? location)

namespace Touched

variable
  {footprint larger : Footprint}
  {before middle after : Disk}

@[refl]
theorem refl (footprint : Footprint) (disk : Disk) : Touched footprint disk disk :=
  ⟨rfl, fun location => .stay (disk.node? location)⟩

theorem trans
    (first : Touched footprint before middle)
    (second : Touched footprint middle after) :
    Touched footprint before after :=
  ⟨second.here.trans first.here,
    fun location => (first.change location).trans (second.change location)⟩

theorem mono
    (touched : Touched footprint before after)
    (within : footprint.Within larger) :
    Touched larger before after :=
  ⟨touched.here, fun location => (touched.change location).mono within⟩

theorem target
    (touched : Touched footprint before after)
    (path : Path) :
    after.target path = before.target path := by
  rw [Disk.target, Disk.target, touched.here]

/-- A node that is put somewhere changes its location only. -/
theorem of_putAt
    {location : Location}
    {node : Node}
    (put : PutAt before location node after)
    (change : Change footprint location (before.node? location) (some node)) :
    Touched footprint before after := by
  refine ⟨put.here, fun other => ?_⟩
  rw [put.node?]
  split
  next same => rwa [same]
  next => exact .stay _

end Touched

/-! ## Operations -/

variable
  {disk after : Disk}
  {access : Access}
  {path : Path}

theorem touched_of_makeFolder? (made : disk.makeFolder? path = .ok after) :
    Touched (.making (· = disk.target path)) disk after := by
  obtain ⟨put, free⟩ := putAt_of_makeFolder? made
  apply Touched.of_putAt put
  rw [free]
  exact .make rfl

/-- A folder is made, unless it is there already. -/
def settle (disk : Disk) (path : Path) : Disk × Except SystemError Unit :=
  match disk.makeFolder? path with
  | .ok made => (made, .ok ())
  | .error cause => (disk, if disk.holdsFolder path then .ok () else .error cause)

/-- Where the folder around it is there, only the folder at the path is made. -/
theorem makeFoldersAt_of_ne
    {disk : Disk}
    {outer : List Path}
    (nonempty : path.bytes ≠ [])
    (possible : disk.makeFolder? path ≠ .error .notFound) :
    disk.makeFoldersAt (path :: outer) = disk.settle path := by
  -- The attempt does not fail in the one way in which the others would be made first.
  simp only [makeFoldersAt, if_neg nonempty]
  rfl

/-- Where the folder around it is missing, the folders outside are made first. -/
theorem makeFoldersAt_of_eq
    {disk : Disk}
    {outer : List Path}
    (nonempty : path.bytes ≠ [])
    (missing : disk.makeFolder? path = .error .notFound) :
    disk.makeFoldersAt (path :: outer) =
      match (disk.makeFoldersAt outer).2 with
      | .ok () => (disk.makeFoldersAt outer).1.settle path
      | .error _ => disk.makeFoldersAt outer := by
  simp only [makeFoldersAt, if_neg nonempty, missing]
  rcases disk.makeFoldersAt outer with ⟨middle, cause | ready⟩
  · rfl
  · rfl

theorem touched_settle (disk : Disk) (path : Path) :
    Touched (.making (· = disk.target path)) disk (disk.settle path).1 := by
  unfold settle
  split
  next made => exact touched_of_makeFolder? made
  next => exact .refl _ disk

/-- Folders are made at given paths only. -/
theorem touched_makeFoldersAt (disk : Disk) (paths : List Path) :
    Touched (.making fun location => ∃ path ∈ paths, location = disk.target path) disk
      (disk.makeFoldersAt paths).1 := by
  induction paths with
  | nil => exact .refl _ disk
  | cons path outer ih =>
      let some : Footprint := .making fun location =>
        ∃ other ∈ path :: outer, location = disk.target other
      have early : Touched some disk (disk.makeFoldersAt outer).1 := by
        refine ih.mono ⟨?_, fun _ => id, fun _ => id⟩
        rintro location ⟨other, member, same⟩
        exact ⟨other, List.mem_cons_of_mem path member, same⟩
      have last (middle : Disk) (same : middle.target path = disk.target path) :
          Touched some middle (middle.settle path).1 := by
        refine (touched_settle middle path).mono ⟨?_, fun _ => id, fun _ => id⟩
        rintro location rfl
        exact ⟨path, List.mem_cons_self, same⟩
      by_cases nonempty : path.bytes = []
      · simp only [makeFoldersAt, if_pos nonempty]
        exact .refl some disk
      · by_cases missing : disk.makeFolder? path = .error .notFound
        · rw [makeFoldersAt_of_eq nonempty missing]
          split
          · exact early.trans (last _ (early.target path))
          · exact early
        · rw [makeFoldersAt_of_ne nonempty missing]
          exact last disk rfl

theorem isAbove_of_mem_outwards
    {above : Path}
    {count : Nat}
    (member : above ∈ outwards path count) :
    above.IsAbove path := by
  induction count generalizing path with
  | zero =>
      rw [List.mem_singleton.mp member]
      exact .refl
  | succ count ih =>
      unfold outwards at member
      split at member
      · rw [List.mem_singleton.mp member]
        exact .refl
      next parent outer =>
        rcases List.mem_cons.mp member with rfl | further
        · exact .refl
        · exact .head outer (ih further)

/-- Making folders makes the one at the path and those above it. -/
theorem touched_makeFolders (disk : Disk) (access : Access) (path : Path) :
    Touched (.making fun location => ∃ above, above.IsAbove path ∧ location = disk.target above)
      disk (disk.makeFolders access path).disk := by
  unfold makeFolders
  split
  · refine (touched_makeFoldersAt disk _).mono ⟨?_, fun _ => id, fun _ => id⟩
    rintro location ⟨above, member, same⟩
    exact ⟨above, isAbove_of_mem_outwards member, same⟩
  · exact .refl _ disk

theorem touched_touch (disk : Disk) (access : Access) (path : Path) :
    Touched (.creating (· = disk.target path)) disk (disk.touch access path).disk := by
  unfold touch
  split
  · split
    · exact .refl _ disk
    next created =>
      rcases putAt_of_createFile? created with rfl | ⟨put, free⟩
      · exact .refl _ _
      · apply Touched.of_putAt put
        rw [free]
        exact .create rfl
  · exact .refl _ disk

theorem touched_write (disk : Disk) (access : Access) (path : Path) (text : Text) :
    Touched (.writing (· = disk.target path)) disk (disk.write access path text).disk := by
  unfold write
  split
  · split
    · exact .refl _ disk
    · split
      · exact .refl _ disk
      next replaced =>
        have put := (putAt_of_replace replaced).1
        exact .of_putAt put (.write rfl put.free _)
  · exact .refl _ disk

end Disk
end Phrasebook
