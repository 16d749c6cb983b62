import Phrasebook.Proofs.Disk.Footprint

/-!
# Growing disks

What is made, created and written within a footprint lets a disk grow: folders stay folders, files
stay as they are but for those that are written, and new nodes come only where they are wanted.
Making the folders on a path adds no more than the last of them where the one around it is there.
-/

namespace Phrasebook

open Outcome

namespace Disk

/--
A disk has grown into another one: new nodes have come at some locations, and other locations may
hold something else than before.
-/
structure Grows (added changed : Location → Prop) (before after : Disk) : Prop where
  /-- The working folder stays. -/
  here : after.here = before.here
  /-- Folders stay. -/
  kept : ∀ folder, before.node? folder = some .folder → after.node? folder = some .folder
  /-- Nodes that are not changed stay. -/
  unchanged : ∀ location, ¬changed location → (before.node? location).isSome →
    after.node? location = before.node? location
  /-- No nodes come where none are added. -/
  absent : ∀ location, ¬added location → before.node? location = none →
    after.node? location = none

namespace Grows

variable
  {added changed : Location → Prop}
  {before middle after : Disk}

@[refl]
theorem refl (disk : Disk) : Grows added changed disk disk :=
  ⟨rfl, fun _ present => present, fun _ _ _ => rfl, fun _ _ nothing => nothing⟩

theorem trans
    (first : Grows added changed before middle)
    (second : Grows added changed middle after) :
    Grows added changed before after := by
  refine ⟨second.here.trans first.here, fun folder present => ?_, fun location same present => ?_,
    fun location elsewhere nothing => ?_⟩
  · exact second.kept folder (first.kept folder present)
  · have early := first.unchanged location same present
    rw [second.unchanged location same (by rwa [early]), early]
  · exact second.absent location elsewhere (first.absent location elsewhere nothing)

theorem mono
    {addedMore changedMore : Location → Prop}
    (grows : Grows added changed before after)
    (more : ∀ location, added location → addedMore location)
    (others : ∀ location, changed location → changedMore location) :
    Grows addedMore changedMore before after :=
  ⟨grows.here, grows.kept,
    fun location same => grows.unchanged location fun change => same (others location change),
    fun location elsewhere => grows.absent location fun new => elsewhere (more location new)⟩

/-- Where nothing is added or changed, a grown disk holds what it held. -/
theorem node?_eq
    (grows : Grows added changed before after)
    {location : Location}
    (old : ¬added location)
    (same : ¬changed location) :
    after.node? location = before.node? location := by
  cases present : before.node? location with
  | none => exact grows.absent location old present
  | some node => rw [← present, grows.unchanged location same (by rw [present]; rfl)]

theorem target
    (grows : Grows added changed before after)
    (path : Path) :
    after.target path = before.target path := by
  rw [Disk.target, Disk.target, grows.here]

/-- A path that leads to a folder still leads there. -/
theorem find_folder
    (grows : Grows added changed before after)
    {path : Path}
    {location : Location}
    (found : before.find path = .ok (location, .folder)) :
    after.find path = .ok (location, .folder) :=
  find_of_kept grows.kept grows.here found (grows.kept _ (find_eq_ok found).2)

/-- What a footprint allows to be made, created or written bounds how a disk grows. -/
theorem of_touched
    {footprint : Footprint}
    (touched : Touched footprint before after)
    (made : ∀ location, footprint.made location → added location)
    (created : ∀ location, footprint.created location → added location)
    (written : ∀ location, footprint.written location → added location ∧ changed location) :
    Grows added changed before after := by
  refine ⟨touched.here, fun folder present => ?_, fun location same present => ?_,
    fun location old nothing => ?_⟩
  · have change := touched.change folder
    rw [present] at change
    generalize after.node? folder = node at change ⊢
    cases change with
    | stay => rfl
    | write _ noFolder => exact absurd rfl noFolder
  · have change := touched.change location
    generalize before.node? location = node at change present ⊢
    generalize after.node? location = nodeAfter at change ⊢
    cases change with
    | stay => rfl
    | make => simp at present
    | create => simp at present
    | write allowed => exact absurd (written location allowed).2 same
  · have change := touched.change location
    rw [nothing] at change
    generalize after.node? location = node at change ⊢
    cases change with
    | stay => rfl
    | make allowed => exact absurd (made location allowed) old
    | create allowed => exact absurd (created location allowed) old
    | write allowed => exact absurd (written location allowed).1 old

end Grows

/-! ## Operations -/

variable
  {disk after : Disk}
  {access : Access}
  {path : Path}

/-- Nothing is changed. -/
abbrev Unchanged : Location → Prop :=
  fun _ => False

/-- In a folder that is there, only the folder at the path is added. -/
theorem grows_makeFolders_join
    {base : Path}
    {name : Bytes}
    {location : Location}
    (plain : Path.IsPlainName name)
    (inFolder : disk.find base = .ok (location, .folder))
    (access : Access) :
    Grows (· = disk.target (base.join name)) Unchanged disk
      (disk.makeFolders access (base.join name)).disk := by
  have possible := makeFolder?_join_ne_notFound plain inFolder
  have nonempty := Path.bytes_join_ne_nil base plain
  unfold makeFolders
  split
  · obtain ⟨outer, whole⟩ : ∃ outer, outwards (base.join name) (base.join name).bytes.length =
        base.join name :: outer := by
      cases (base.join name).bytes.length with
      | zero => exact ⟨[], rfl⟩
      | succ count =>
          unfold outwards
          split
          · exact ⟨[], rfl⟩
          · exact ⟨_, rfl⟩
    -- The folders around the path are made only if one is missing, and here none is.
    simp only [whole, makeFoldersAt_of_ne nonempty possible]
    exact .of_touched (touched_settle disk _) (fun _ => id) (fun _ => False.elim)
      fun _ => False.elim
  · exact .refl disk

theorem grows_touch (disk : Disk) (access : Access) (path : Path) :
    Grows (· = disk.target path) Unchanged disk (disk.touch access path).disk :=
  .of_touched (touched_touch disk access path) (fun _ => False.elim) (fun _ => id)
    fun _ => False.elim

/-- A written file is the only thing that is added or changed. -/
theorem grows_write (disk : Disk) (access : Access) (path : Path) (text : Text) :
    Grows (· = disk.target path) (· = disk.target path) disk
      (disk.write access path text).disk :=
  .of_touched (touched_write disk access path text) (fun _ => False.elim) (fun _ => False.elim)
    fun _ same => ⟨same, same⟩

theorem replace_of_write
    {text : Text}
    (written : (disk.write access path text).result = .ok ()) :
    access.mayWrite path = true ∧ disk.makeTemporary (folderAround path) = .ok () ∧
      disk.replace path (Text.encode text) = .ok (disk.write access path text).disk := by
  unfold write at written ⊢
  split at written
  next granted =>
    split at written
    · simp at written
    next temporary =>
      split at written
      · simp at written
      next replaced =>
        rw [if_pos granted]
        exact ⟨granted, temporary, replaced⟩
  · simp at written

/-- A file that was written is found with its new content. -/
theorem find_of_write
    {text : Text}
    (written : (disk.write access path text).result = .ok ()) :
    (disk.write access path text).disk.find path =
      .ok (disk.target path, .file (Text.encode text)) :=
  (putAt_of_replace (replace_of_write written).2.2).2

/-- Writing what is written already changes nothing. -/
theorem write_self
    {added changed : Location → Prop}
    {last : Disk}
    {text : Text}
    (written : (disk.write access path text).result = .ok ())
    (grows : Grows added changed disk last)
    (present : last.node? (disk.target path) = some (.file (Text.encode text))) :
    last.write access path text = ⟨last, .ok ()⟩ := by
  obtain ⟨granted, temporary, replaced⟩ := replace_of_write written
  have temporaryLast : last.makeTemporary (folderAround path) = .ok () := by
    obtain ⟨place, placed, -⟩ := map_eq_ok_iff.mp temporary
    obtain ⟨later, placedLater, -⟩ := placeOf_of_kept grows.kept grows.here placed
    rw [makeTemporary, placedLater]
    rfl
  have again := replace_self replaced grows.kept grows.here present
  rw [write, if_pos granted, temporaryLast, again]

end Disk
end Phrasebook
