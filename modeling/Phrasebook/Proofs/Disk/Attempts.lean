import Phrasebook.Proofs.Disk.Growth
import Phrasebook.Proofs.Disk.Twins

/-!
# Operations that fail and succeed

An operation asks for access to its path and then either does what it does with any access, or is
denied and leaves the disk as it is.  Folders that were made are there afterwards, and so is a file
that was touched.  Where the folders at a path could not all be made, the last of them was not.
-/

namespace Phrasebook

open Outcome

namespace Disk

variable
  {disk after done : Disk}
  {access granted : Access}
  {path : Path}
  {cause : SystemError}

/-! ## With and without access -/

/-- What succeeds with some access either is done with another one too, or it is denied. -/
theorem done_or_denied
    {attempt : Outcome}
    {isGranted : Bool}
    (succeeded : (if isGranted then attempt else ⟨disk, .error (.denied path)⟩) = ⟨done, .ok ()⟩)
    (isAllowed : Bool) :
    (if isAllowed then attempt else ⟨disk, .error (.denied path)⟩) = Outcome.mk done (.ok ()) ∨
      (if isAllowed then attempt else ⟨disk, .error (.denied path)⟩) =
        Outcome.mk disk (.error (.denied path)) := by
  cases isGranted with
  | false => cases succeeded
  | true =>
      cases isAllowed with
      | false => exact .inr rfl
      | true => exact .inl succeeded

/-- Folders that can be made with some access are made with another one too, or it is denied. -/
theorem makeFolders_or_denied
    (made : disk.makeFolders granted path = ⟨done, .ok ()⟩)
    (access : Access) :
    disk.makeFolders access path = ⟨done, .ok ()⟩ ∨
      disk.makeFolders access path = ⟨disk, .error (.denied path)⟩ :=
  done_or_denied made (access.mayMakeFolder path)

/-- A file that can be touched with some access is touched with another one too, or it is denied. -/
theorem touch_or_denied
    (touched : disk.touch granted path = ⟨done, .ok ()⟩)
    (access : Access) :
    disk.touch access path = ⟨done, .ok ()⟩ ∨
      disk.touch access path = ⟨disk, .error (.denied path)⟩ :=
  done_or_denied touched (access.mayTouch path)

/-- A file that can be written with some access is written with another one too, or it is denied. -/
theorem write_or_denied
    {text : Text}
    (written : disk.write granted path text = ⟨done, .ok ()⟩)
    (access : Access) :
    disk.write access path text = ⟨done, .ok ()⟩ ∨
      disk.write access path text = ⟨disk, .error (.denied path)⟩ :=
  done_or_denied written (access.mayWrite path)

/-! ## Files that were touched -/

/-- What was a file stays one, whatever happens to it. -/
theorem Touched.exists_file
    {footprint : Footprint}
    {location : Location}
    (touched : Touched footprint disk after)
    (isFile : ∃ content, disk.node? location = some (.file content)) :
    ∃ content, after.node? location = some (.file content) := by
  obtain ⟨content, present⟩ := isFile
  have change := touched.change location
  rw [present] at change
  generalize after.node? location = node at change ⊢
  cases change with
  | stay => exact ⟨content, rfl⟩
  | write _ _ content => exact ⟨content, rfl⟩

/-- A new folder is one that may be made. -/
theorem Touched.made_of_folder
    {footprint : Footprint}
    {location : Location}
    (touched : Touched footprint disk after)
    (old : disk.node? location ≠ some .folder)
    (new : after.node? location = some .folder) :
    footprint.made location := by
  have change := touched.change location
  rw [new] at change
  generalize disk.node? location = node at change old
  cases change with
  | stay => exact absurd rfl old
  | make allowed => exact allowed

/-- Where folders were made, what is no folder is what it was. -/
theorem Touched.node?_of_making
    {made : Location → Prop}
    {location : Location}
    (touched : Touched (.making made) disk after)
    (noFolder : after.node? location ≠ some .folder) :
    after.node? location = disk.node? location := by
  have change := touched.change location
  generalize disk.node? location = old at change ⊢
  generalize after.node? location = new at change noFolder ⊢
  cases change with
  | stay => rfl
  | make => exact absurd rfl noFolder
  | create allowed => exact allowed.elim
  | write allowed => exact allowed.elim

/-- A file that was touched is there. -/
theorem exists_file_of_touch (touched : disk.touch access path = ⟨after, .ok ()⟩) :
    ∃ content, after.node? (disk.target path) = some (.file content) := by
  unfold touch at touched
  split at touched
  · split at touched
    · cases touched
    next created =>
      cases touched
      rcases putAt_of_createFile? created with rfl | ⟨put, -⟩
      · -- Nothing was put, so a file was there already.
        unfold createFile? at created
        split at created
        · cases created
        next place placed =>
          split at created
          · cases created
          · split at created
            next named =>
              rw [← location_of_placeOf placed named]
              split at created
              · cases created
              next content present => exact ⟨content, present⟩
              next free =>
                have same := congrArg (Disk.node? · place.location) (Except.ok.inj created)
                simp only [node?_put, Place.location, if_true] at same
                exact ⟨[], same.symm⟩
            · cases created
      · exact ⟨[], put.present⟩
  · cases touched

/-- A file that was touched was there, or it is the only thing that is new. -/
theorem putAt_of_touch (touched : disk.touch access path = ⟨after, .ok ()⟩) :
    after = disk ∨ PutAt disk (disk.target path) (.file []) after := by
  unfold touch at touched
  split at touched
  · split at touched
    · cases touched
    next created =>
      cases touched
      exact (putAt_of_createFile? created).imp_right And.left
  · cases touched

/-! ## Disks with and without a file -/

/-- A file that can be written past another file has nothing to do with that one. -/
theorem sameShapeAlong_of_putAt
    {place : Location}
    {content : Bytes}
    {text : Text}
    (put : PutAt disk place (.file content) done)
    (apart : disk.target path ≠ place)
    (written : done.write access path text = ⟨after, .ok ()⟩) :
    SameShapeAlong done disk path := by
  have touched := touched_write done access path text
  have found : (done.write access path text).disk.find path = _ :=
    find_of_write (by rw [written])
  rw [written] at touched found
  obtain ⟨-, followed, -⟩ := find_eq_ok_iff.mp found
  refine ⟨put.here.symm, fun location member => ?_⟩
  rw [startOf, ← touched.here, ← startOf] at member
  have elsewhere : location ≠ place := by
    rintro rfl
    rcases folder_of_mem_way followed member with same | folder
    · apply apart
      rw [same, target, target, put.here]
    · obtain ⟨kept, isFile⟩ := touched.exists_file ⟨content, put.present⟩
      rw [folder] at isFile
      cases isFile
  rw [SameShapeAt, bare?, bare?, put.node?, if_neg elsewhere]

/-- A file that can be written past another file can be written without it. -/
theorem exists_write_of_putAt
    {place : Location}
    {content : Bytes}
    {name : Bytes}
    {text : Text}
    (put : PutAt disk place (.file content) done)
    (apart : disk.target path ≠ place)
    (named : path.fileName? = some name)
    (written : done.write access path text = ⟨after, .ok ()⟩) :
    ∃ last, disk.write access path text = ⟨last, .ok ()⟩ ∧ last.here = after.here ∧
      last.node? place = disk.node? place ∧
      ∀ location, location ≠ place → last.node? location = after.node? location := by
  have shaped := sameShapeAlong_of_putAt put apart written
  have alike := write_alike shaped named access text
  have grows := grows_write disk access path text
  have changed := alike.disks
  rw [written] at alike changed
  refine ⟨(disk.write access path text).disk, congrArg (Outcome.mk _) alike.results,
    changed.sameHere shaped.here, grows.node?_eq (Ne.symm apart) (Ne.symm apart),
    fun location elsewhere => changed.sameAt ?_⟩
  rw [SameAt, put.node?, if_neg elsewhere]

/-! ## Folders that were made -/

theorem holds_of_holdsFolder (held : disk.holdsFolder path = true) : disk.holds path = true := by
  obtain ⟨location, found⟩ := exists_find_of_holdsFolder held
  rw [holds, found]

theorem holdsFolder_of_find
    {location : Location}
    (found : disk.find path = .ok (location, .folder)) :
    disk.holdsFolder path = true := by
  rw [holdsFolder, found]

theorem holdsFolder_of_makeFolder? (made : disk.makeFolder? path = .ok after) :
    after.holdsFolder path = true := by
  unfold makeFolder? at made
  split at made
  · cases made
  next place placed =>
    split at made
    next named =>
      split at made
      next free =>
        rw [Except.ok.injEq] at made
        subst made
        have put := PutAt.put place .folder named (by simp [free])
        exact holdsFolder_of_find
          (find_of_placeOf (fun _ => put.kept) put.here placed named (fun _ => rfl) put.present)
      · cases made
    · cases made

theorem holdsFolder_of_settle (settled : disk.settle path = (after, .ok ())) :
    after.holdsFolder path = true := by
  unfold settle at settled
  split at settled
  next made created =>
    cases settled
    exact holdsFolder_of_makeFolder? created
  next =>
    split at settled
    next held =>
      cases settled
      exact held
    · cases settled

/-- A folder that does not settle is not made. -/
theorem eq_of_settle (failed : disk.settle path = (after, .error cause)) : after = disk := by
  unfold settle at failed
  split at failed
  · cases failed
  · split at failed
    · cases failed
    · cases failed
      rfl

/-- Where folders were made at paths, the first path leads to one. -/
theorem holdsFolder_of_makeFoldersAt
    {outer : List Path}
    (nonempty : path.bytes ≠ [])
    (made : disk.makeFoldersAt (path :: outer) = (after, .ok ())) :
    after.holdsFolder path = true := by
  by_cases missing : disk.makeFolder? path = .error .notFound
  · rw [makeFoldersAt_of_eq nonempty missing] at made
    split at made
    · exact holdsFolder_of_settle made
    next failed =>
      rw [made] at failed
      cases failed
  · rw [makeFoldersAt_of_ne nonempty missing] at made
    exact holdsFolder_of_settle made

/-- Where folders could not be made at paths, none is made at the first path. -/
theorem touched_of_makeFoldersAt
    {outer : List Path}
    (failed : disk.makeFoldersAt (path :: outer) = (after, .error cause)) :
    Touched (.making fun location => ∃ other ∈ outer, location = disk.target other) disk after := by
  have early := touched_makeFoldersAt disk outer
  by_cases nonempty : path.bytes = []
  · simp only [makeFoldersAt, if_pos nonempty] at failed
    cases failed
  · by_cases missing : disk.makeFolder? path = .error .notFound
    · rw [makeFoldersAt_of_eq nonempty missing] at failed
      split at failed
      · rwa [eq_of_settle failed]
      · rwa [failed] at early
    · rw [makeFoldersAt_of_ne nonempty missing] at failed
      rw [eq_of_settle failed]

theorem exists_outwards (path : Path) (count : Nat) :
    ∃ outer, outwards path count = path :: outer ∧
      ∀ other ∈ outer, ∃ parent, path.parent? = some parent ∧ other.IsAbove parent := by
  cases count with
  | zero => exact ⟨[], rfl, by simp⟩
  | succ count =>
      unfold outwards
      split
      · exact ⟨[], rfl, by simp⟩
      next parent above =>
        exact ⟨_, rfl, fun other member => ⟨parent, above, isAbove_of_mem_outwards member⟩⟩

/-- Folders that were made at a path are there. -/
theorem holdsFolder_of_makeFolders
    (nonempty : path.bytes ≠ [])
    (made : disk.makeFolders access path = ⟨after, .ok ()⟩) :
    after.holdsFolder path = true := by
  obtain ⟨outer, whole, -⟩ := exists_outwards path path.bytes.length
  unfold makeFolders at made
  split at made
  · obtain ⟨rfl, ready⟩ := Outcome.mk.inj made
    rw [whole] at ready ⊢
    exact holdsFolder_of_makeFoldersAt nonempty (Prod.ext rfl (mapError_eq_ok_iff.mp ready))
  · cases made

/-- Where folders could not be made at a path, at most some above the path were made. -/
theorem touched_of_makeFolders
    {cause : Error}
    (failed : disk.makeFolders access path = ⟨after, .error cause⟩) :
    Touched (.making fun location => ∃ parent above, path.parent? = some parent ∧
      above.IsAbove parent ∧ location = disk.target above) disk after := by
  obtain ⟨outer, whole, further⟩ := exists_outwards path path.bytes.length
  unfold makeFolders at failed
  split at failed
  · obtain ⟨rfl, notReady⟩ := Outcome.mk.inj failed
    obtain ⟨reason, notReady, -⟩ := mapError_eq_error_iff.mp notReady
    rw [whole] at notReady ⊢
    refine (touched_of_makeFoldersAt (Prod.ext rfl notReady)).mono ⟨?_, fun _ => id, fun _ => id⟩
    rintro location ⟨other, member, same⟩
    obtain ⟨parent, above, isAbove⟩ := further other member
    exact ⟨parent, other, above, isAbove, same⟩
  · cases failed
    exact .refl _ disk

end Disk
end Phrasebook
