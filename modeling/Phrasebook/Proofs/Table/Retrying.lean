import Phrasebook.Proofs.Disk.Attempts
import Phrasebook.Proofs.Table.Twins

/-!
# Tables that are written again after a failure

Writing a table has three steps: the folder, the marker in a new folder, and the file.  A call whose
folder or file fails can be repeated: the table and all around it are then as after a single call
that nothing obstructs.  A folder without its marker is taken for one that is ready, though, so a
marker that fails is not made by a later call.  As long as this does not happen, a folder of tables
that has anything in it has its marker.
-/

namespace Phrasebook
namespace Table

open Disk (PutAt SameShapeAlong SameShapeAt Touched)
open Text (encode)

/-- What was attempted failed at the marker. -/
def FailedAtMarker {Result : Type} (result : Except WriteError Result) : Prop :=
  ∃ path cause, result = .error (.marker path cause)

variable
  {disk after middle single : Disk}
  {access granted : Access}
  {save : Path}
  {module locale : Text}
  {format : Format}
  {entities : Entity.Map}
  {folder : Path}
  {cause : WriteError}
  {written : Written}

/-! ## Folders and markers -/

/-- A folder is ready when it was there or when it and its marker were made. -/
theorem prepareFolder_eq_ok_iff :
    prepareFolder disk access folder = (middle, .ok ()) ↔
      disk.holds folder = true ∧ middle = disk ∨
        disk.holds folder = false ∧ ∃ made, disk.makeFolders access folder = ⟨made, .ok ()⟩ ∧
          made.touch access (markerIn folder) = ⟨middle, .ok ()⟩ := by
  unfold prepareFolder
  cases disk.holds folder with
  | true => simp [eq_comm]
  | false =>
      rcases disk.makeFolders access folder with ⟨made, cause | ready⟩
      · simp
      · rcases marked : made.touch access (markerIn folder) with ⟨last, cause | ready⟩ <;>
          simp [marked, Except.mapError]

/-- A folder is not ready when it or its marker was not made. -/
theorem prepareFolder_eq_error_iff :
    prepareFolder disk access folder = (after, .error cause) ↔
      disk.holds folder = false ∧
        ((∃ reason, disk.makeFolders access folder = ⟨after, .error reason⟩ ∧
            cause = .folder folder reason) ∨
          ∃ made reason, disk.makeFolders access folder = ⟨made, .ok ()⟩ ∧
            made.touch access (markerIn folder) = ⟨after, .error reason⟩ ∧
            cause = .marker (markerIn folder) reason) := by
  unfold prepareFolder
  cases disk.holds folder with
  | true => simp
  | false =>
      rcases disk.makeFolders access folder with ⟨made, reason | ready⟩
      · simp [eq_comm]
      · rcases marked : made.touch access (markerIn folder) with ⟨last, reason | ready⟩ <;>
          simp [marked, Except.mapError, eq_comm]

/-- A folder that is ready is there. -/
theorem holds_of_prepareFolder
    (nonempty : folder.bytes ≠ [])
    (ready : prepareFolder disk access folder = (middle, .ok ())) :
    middle.holds folder = true := by
  rcases prepareFolder_eq_ok_iff.mp ready with ⟨held, rfl⟩ | ⟨-, made, new, marked⟩
  · exact held
  · obtain ⟨location, found⟩ :=
      Disk.exists_find_of_holdsFolder (Disk.holdsFolder_of_makeFolders nonempty new)
    have grows := Disk.grows_touch made access (markerIn folder)
    rw [marked] at grows
    exact Disk.holds_of_holdsFolder (Disk.holdsFolder_of_find (grows.find_folder found))

theorem bytes_folderOf_ne_nil (save : Path) (module : Text) : (folderOf save module).bytes ≠ [] :=
  Path.bytes_join_ne_nil (save.join module) isPlainName_lang

theorem target_markerIn (disk : Disk) (folder : Path) :
    disk.target (markerIn folder) = disk.target folder ++ [encode "_manifest_exclude".toList] :=
  Disk.target_join disk folder isPlainName_marker

/-- A table is never written to its marker: the names of tables have a dot. -/
theorem target_pathOf_ne
    (disk : Disk)
    (save : Path)
    (module locale : Text)
    (format : Format) :
    disk.target (pathOf save module locale format) ≠
      disk.target (markerIn (folderOf save module)) := by
  obtain ⟨stem, named⟩ := exists_fileName?_pathOf save module locale format
  obtain ⟨front, whole⟩ := Disk.exists_target_of_fileName? disk named
  rw [whole, target_markerIn]
  intro same
  have names := List.append_inj_right' same rfl
  rw [List.singleton_inj] at names
  have dot : Path.dot ∈ stem ++ encode ('.' :: format.extension) := by
    simp [Text.standsFor_dot.encode_cons]
  rw [names] at dot
  revert dot
  decide

/-! ## One more call -/

/-- What preparing a folder may come to where more access would make it ready. -/
inductive Preparation (disk ready : Disk) (folder : Path) :
    Disk × Except WriteError Unit → Prop where
  /-- The folder is ready. -/
  | done : Preparation disk ready folder (ready, .ok ())
  /-- The folder is not made. -/
  | noFolder (reason : Disk.Error) :
      Preparation disk ready folder (disk, .error (.folder folder reason))
  /-- The folder is made without its marker. -/
  | noMarker
      {made : Disk}
      (held : made.holds folder = true)
      (here : made.here = disk.here)
      (same : made.node? (disk.target (markerIn folder)) =
        disk.node? (disk.target (markerIn folder)))
      (marked : ready = made ∨ PutAt made (disk.target (markerIn folder)) (.file []) ready)
      (reason : Disk.Error) :
      Preparation disk ready folder (made, .error (.marker (markerIn folder) reason))

/-- A folder that is ready with some access is ready with another one, or that is denied. -/
theorem preparation_of_ready
    (nonempty : folder.bytes ≠ [])
    (ready : prepareFolder disk granted folder = (middle, .ok ()))
    (access : Access) :
    Preparation disk middle folder (prepareFolder disk access folder) := by
  rcases prepareFolder_eq_ok_iff.mp ready with ⟨held, rfl⟩ | ⟨missing, made, new, marked⟩
  · rw [prepareFolder_eq_ok_iff.mpr (.inl ⟨held, rfl⟩)]
    exact .done
  · rcases Disk.makeFolders_or_denied new access with newHere | denied
    · rcases Disk.touch_or_denied marked access with markedHere | denied
      · rw [prepareFolder_eq_ok_iff.mpr (.inr ⟨missing, made, newHere, markedHere⟩)]
        exact .done
      · rw [prepareFolder_eq_error_iff.mpr ⟨missing, .inr ⟨made, _, newHere, denied, rfl⟩⟩]
        have touched := Disk.touched_makeFolders disk access folder
        rw [newHere] at touched
        have put := Disk.putAt_of_touch marked
        obtain ⟨content, isFile⟩ := Disk.exists_file_of_touch marked
        have grows := Disk.grows_touch made granted (markerIn folder)
        rw [marked] at grows
        rw [touched.target] at put isFile
        refine .noMarker ?_ touched.here (touched.node?_of_making fun inTheWay => ?_) put _
        · exact Disk.holds_of_holdsFolder (Disk.holdsFolder_of_makeFolders nonempty new)
        · -- A folder in the place of the marker would still be there.
          rw [grows.kept _ inTheWay] at isFile
          cases isFile
    · rw [prepareFolder_eq_error_iff.mpr ⟨missing, .inl ⟨_, denied, rfl⟩⟩]
      exact .noFolder _

/--
What one more call leaves after one that failed, beside what a single call would have left: the
same, except that a marker that failed is as it was at first.
-/
def Recovered (cause : WriteError) (marker : Location) (disk single last : Disk) : Prop :=
  match cause with
  | .marker _ _ =>
      last.here = single.here ∧ last.node? marker = disk.node? marker ∧
        ∀ location, location ≠ marker → last.node? location = single.node? location
  | _ => last = single

/-- A table is written without more ado to a folder that is there. -/
theorem write_of_holds
    (held : disk.holds (folderOf save module) = true)
    (wrote : disk.write access (pathOf save module locale format) (render format locale entities) =
      ⟨after, .ok ()⟩) :
    write disk access save module locale format entities =
      (after, .ok (writtenAt (pathOf save module locale format) entities)) :=
  write_eq_ok_iff.mpr ⟨rfl, disk, prepareFolder_eq_ok_iff.mpr (.inl ⟨held, rfl⟩), wrote⟩

/-- A table is written after a failure if a single call would have written it. -/
theorem exists_recovered
    (failed : write disk access save module locale format entities = (after, .error cause))
    (unobstructed : write disk granted save module locale format entities =
      (single, .ok written)) :
    ∃ last, write after granted save module locale format entities = (last, .ok written) ∧
      Recovered cause (disk.target (markerIn (folderOf save module))) disk single last := by
  obtain ⟨rfl, middle, ready, wrote⟩ := write_eq_ok_iff.mp unobstructed
  have nonempty := bytes_folderOf_ne_nil save module
  have prepared := preparation_of_ready nonempty ready access
  unfold write at failed
  generalize prepareFolder disk access (folderOf save module) = attempt at prepared failed
  cases prepared with
  | noFolder reason =>
      cases failed
      exact ⟨single, unobstructed, rfl⟩
  | done =>
      rcases Disk.write_or_denied wrote access with wroteHere | denied
      · simp only [wroteHere] at failed
        cases failed
      · simp only [denied] at failed
        cases failed
        exact ⟨single, write_of_holds (holds_of_prepareFolder nonempty ready) wrote, rfl⟩
  | noMarker held here same marked reason =>
      cases failed
      have apart : after.target (pathOf save module locale format) ≠
          disk.target (markerIn (folderOf save module)) := by
        rw [Disk.target, here, ← Disk.target]
        exact target_pathOf_ne disk save module locale format
      rcases marked with rfl | put
      · have grows := Disk.grows_write middle granted (pathOf save module locale format)
          (render format locale entities)
        rw [wrote] at grows
        refine ⟨single, write_of_holds held wrote, rfl, ?_, fun _ _ => rfl⟩
        rw [grows.node?_eq apart.symm apart.symm, same]
      · obtain ⟨stem, named⟩ := exists_fileName?_pathOf save module locale format
        obtain ⟨last, wroteLast, sameHere, kept, elsewhere⟩ :=
          Disk.exists_write_of_putAt put apart named wrote
        exact ⟨last, write_of_holds held wroteLast, sameHere, kept.trans same, elsewhere⟩

/-! ## Any number of calls -/

/-- A folder at a location has its marker. -/
def MarkedAt (disk : Disk) (place : Location) : Prop :=
  disk.node? place = some .folder →
    ∃ content, disk.node? (place ++ [encode "_manifest_exclude".toList]) = some (.file content)

/-- A call does not make the folder at a location without its marker. -/
structure Careful
    (disk : Disk)
    (place : Location)
    (save : Path)
    (module : Text)
    (result : Except WriteError Written) : Prop where
  /-- The location is not passed on the way to the folder of tables. -/
  direct : ∀ parent above, (folderOf save module).parent? = some parent →
    above.IsAbove parent → disk.target above ≠ place
  /-- If it is the folder of tables, its marker does not fail. -/
  marked : disk.target (folderOf save module) = place → ¬FailedAtMarker result

/-- One call for any table, with any access; only if the folder is new, it has to be careful. -/
inductive Attempt (place : Location) (disk after : Disk) : Prop where
  /-- The table is written, or it is not. -/
  | call
      {access : Access}
      {save : Path}
      {module locale : Text}
      {format : Format}
      {entities : Entity.Map}
      {result : Except WriteError Written}
      (called : write disk access save module locale format entities = (after, result))
      (careful : disk.node? place ≠ some .folder → Careful disk place save module result)

/-- A marker stays where it is. -/
theorem MarkedAt.of_touched
    {footprint : Disk.Footprint}
    {place : Location}
    (marked : MarkedAt disk place)
    (touched : Touched footprint disk after)
    (old : ¬footprint.made place) :
    MarkedAt after place := by
  intro folder
  have present : disk.node? place = some .folder := by
    by_contra absent
    exact old (touched.made_of_folder absent folder)
  exact touched.exists_file (marked present)

/-- A careful call that makes a folder makes its marker. -/
theorem markedAt_prepareFolder
    {place : Location}
    (absent : disk.node? place ≠ some .folder)
    (direct : ∀ parent above, folder.parent? = some parent → above.IsAbove parent →
      disk.target above ≠ place)
    (noFailure : disk.target folder = place →
      ¬FailedAtMarker (prepareFolder disk access folder).2) :
    MarkedAt (prepareFolder disk access folder).1 place := by
  have own {made : Disk} (new : disk.makeFolders access folder = ⟨made, .ok ()⟩)
      (present : made.node? place = some .folder) : disk.target folder = place := by
    have touched := Disk.touched_makeFolders disk access folder
    rw [new] at touched
    obtain ⟨above, isAbove, here⟩ := touched.made_of_folder absent present
    rcases Relation.ReflTransGen.cases_head isAbove with rfl | ⟨parent, outer, further⟩
    · exact here.symm
    · exact absurd here.symm (direct parent above outer further)
  have kept {made : Disk} {outcome : Disk.Outcome}
      (marked : made.touch access (markerIn folder) = outcome)
      (present : outcome.disk.node? place = some .folder) : made.node? place = some .folder := by
    by_contra missing
    have touched := Disk.touched_touch made access (markerIn folder)
    rw [marked] at touched
    exact touched.made_of_folder missing present
  intro present
  generalize prepared : prepareFolder disk access folder = attempt at noFailure present ⊢
  obtain ⟨last, cause | ready⟩ := attempt
  · rcases (prepareFolder_eq_error_iff.mp prepared).2 with
      ⟨reason, notMade, -⟩ | ⟨made, reason, new, notMarked, rfl⟩
    · obtain ⟨parent, above, outer, isAbove, here⟩ :=
        (Disk.touched_of_makeFolders notMade).made_of_folder absent present
      exact absurd here.symm (direct parent above outer isAbove)
    · exact absurd ⟨_, reason, rfl⟩ (noFailure (own new (kept notMarked present)))
  · rcases prepareFolder_eq_ok_iff.mp prepared with ⟨-, rfl⟩ | ⟨-, made, new, marked⟩
    · exact absurd present absent
    · have here := own new (kept marked present)
      have isFile := Disk.exists_file_of_touch marked
      have touched := Disk.touched_makeFolders disk access folder
      rw [new] at touched
      rwa [touched.target, target_markerIn, here] at isFile

/-- What writing a table changes once its folder is prepared, if anything, is a file. -/
theorem touched_write_of_prepareFolder
    (disk : Disk)
    (access : Access)
    (save : Path)
    (module locale : Text)
    (format : Format)
    (entities : Entity.Map) :
    Touched (.writing fun _ => True) (prepareFolder disk access (folderOf save module)).1
      (write disk access save module locale format entities).1 := by
  unfold write
  rcases prepareFolder disk access (folderOf save module) with ⟨middle, cause | ready⟩
  · exact .refl _ middle
  · exact (Disk.touched_write middle access _ _).mono
      ⟨fun _ => id, fun _ => id, fun _ _ => trivial⟩

/-- A marker that fails makes the whole call fail. -/
theorem failedAtMarker_of_prepareFolder
    {result : Except WriteError Written}
    (called : write disk access save module locale format entities = (after, result))
    (failed : FailedAtMarker (prepareFolder disk access (folderOf save module)).2) :
    FailedAtMarker result := by
  obtain ⟨path, reason, notMarked⟩ := failed
  unfold write at called
  generalize prepareFolder disk access (folderOf save module) = attempt at notMarked called
  obtain ⟨middle, cause | ready⟩ := attempt
  · cases notMarked
    cases called
    exact ⟨path, reason, rfl⟩
  · cases notMarked

/-- One more call leaves a folder with its marker. -/
theorem Attempt.markedAt
    {place : Location}
    (attempt : Attempt place disk after)
    (marked : MarkedAt disk place) :
    MarkedAt after place := by
  obtain @⟨access, save, module, locale, format, entities, result, called, careful⟩ := attempt
  by_cases present : disk.node? place = some .folder
  · have touched := touched_write disk access save module locale format entities
    rw [called] at touched
    exact fun _ => touched.exists_file (marked present)
  · obtain ⟨direct, noFailure⟩ := careful present
    have prepared := markedAt_prepareFolder present direct fun here failed =>
      noFailure here (failedAtMarker_of_prepareFolder called failed)
    have touched := touched_write_of_prepareFolder disk access save module locale format entities
    rw [called] at touched
    exact prepared.of_touched touched id

/-- However many calls there are, a folder has its marker if it was not there at first. -/
theorem markedAt_of_attempts
    {place : Location}
    {last : Disk}
    (absent : disk.node? place ≠ some .folder)
    (attempts : Relation.ReflTransGen (Attempt place) disk last) :
    MarkedAt last place := by
  induction attempts with
  | refl => exact fun present => absurd present absent
  | tail _ attempt ih => exact attempt.markedAt ih

/--
A table whose writing failed can be written again: if a single unobstructed call would have written
it, one more call does, and but for a marker that failed it leaves the disk that the single call
would have left.  Over any number of calls, a folder of tables that was not there at first has its
marker as soon as there is anything in it, as long as no call makes the folder without its marker.
-/
theorem write_retried {disk : Disk} :
    (∀ {after single : Disk} {access granted : Access} {save : Path} {module locale : Text}
        {format : Format} {entities : Entity.Map} {cause : WriteError} {written : Written},
      write disk access save module locale format entities = (after, .error cause) →
      write disk granted save module locale format entities = (single, .ok written) →
      ∃ last, write after granted save module locale format entities = (last, .ok written) ∧
        Recovered cause (disk.target (markerIn (folderOf save module))) disk single last) ∧
    ∀ {last : Disk} {place : Location},
      disk.node? place ≠ some .folder →
      Relation.ReflTransGen (Attempt place) disk last →
      ∀ name, (last.node? (place ++ [name])).isSome →
        ∃ content,
          last.node? (place ++ [encode "_manifest_exclude".toList]) = some (.file content) :=
  ⟨exists_recovered, fun absent attempts name present =>
    markedAt_of_attempts absent attempts (Disk.closed _ _ name present)⟩

/-- A table that is denied at first and granted then has its marker beside it. -/
theorem write_retried_denied :
    let disk := Disk.blank.graft [] "cms".toList .folder
    let entities : Entity.Map := Dictionary.ofList [("A.B".toList, { value := "Save".toList })]
    let call (disk : Disk) (access : Access) :=
      write disk access ⟨[]⟩ "cms".toList "en_US".toList .php entities
    let denied := Access.denying [] [⟨"cms/lang/en_US.php".toList⟩]
    ∃ after cause last written content,
      call disk denied = (after, .error cause) ∧ call after .full = (last, .ok written) ∧
        call disk .full = (last, .ok written) ∧
        last.node? [encode "cms".toList, encode "lang".toList, encode "_manifest_exclude".toList] =
          some (.file content) := by
  intro disk entities call denied
  let path : Path := ⟨"cms/lang/en_US.php".toList⟩
  let lang : Location := [encode "cms".toList, encode "lang".toList]
  have folder : (call disk denied).1.node? lang = some .folder := by decide +kernel
  have failure : (call disk denied).2 = .error (.table path (.denied path)) := by decide +kernel
  have success : (call disk .full).2 = .ok ⟨path, 1, []⟩ := by decide +kernel
  rcases failed : call disk denied with ⟨after, result⟩
  rcases unobstructed : call disk .full with ⟨single, outcome⟩
  rw [failed] at folder failure
  rw [unobstructed] at success
  obtain rfl : result = _ := failure
  obtain rfl : outcome = _ := success
  obtain ⟨last, again, same⟩ := write_retried.1 failed unobstructed
  obtain rfl : last = single := same
  have direct : ∀ parent above, (folderOf ⟨[]⟩ "cms".toList).parent? = some parent →
      above.IsAbove parent → disk.target above ≠ lang := by
    intro parent above outer isAbove
    obtain rfl : ⟨"cms".toList⟩ = parent := Option.some.inj outer
    rcases Relation.ReflTransGen.cases_head isAbove with rfl | ⟨next, outer, isAbove⟩
    · decide +kernel
    · obtain rfl : ⟨[]⟩ = next := Option.some.inj outer
      rcases Relation.ReflTransGen.cases_head isAbove with rfl | ⟨next, outer, -⟩
      · decide +kernel
      · cases outer
  have first : Attempt lang disk after :=
    .call failed fun _ => ⟨direct, fun _ ⟨_, _, failure⟩ => by cases failure⟩
  have second : Attempt lang after last :=
    .call again fun absent => absurd folder absent
  have place : disk.target (pathOf ⟨[]⟩ "cms".toList "en_US".toList .php) =
      lang ++ [encode "en_US.php".toList] := by decide +kernel
  have table := (Disk.find_eq_ok (find_of_write unobstructed)).2
  rw [place] at table
  obtain ⟨content, marked⟩ := write_retried.2 (by decide +kernel) (.tail (.single first) second)
    "en_US.php".toList (by rw [table]; rfl)
  exact ⟨after, _, last, _, content, rfl, again, rfl, marked⟩

/-- A marker that failed once is missing for good, although its table is written. -/
theorem write_retried_unmarked :
    let disk := Disk.blank.graft [] "cms".toList .folder
    let entities : Entity.Map := Dictionary.ofList [("A.B".toList, { value := "Save".toList })]
    let call (disk : Disk) (access : Access) :=
      write disk access ⟨[]⟩ "cms".toList "en_US".toList .php entities
    let marker : Path := ⟨"cms/lang/_manifest_exclude".toList⟩
    let failed := call disk (.denying [] [marker])
    let again := call failed.1 .full
    let single := call disk .full
    let place := [encode "cms".toList, encode "lang".toList]
    disk.node? place = none ∧
      failed.2 = .error (.marker marker (.denied marker)) ∧
      again.2 = .ok ⟨⟨"cms/lang/en_US.php".toList⟩, 1, []⟩ ∧ single.2 = again.2 ∧
      (again.1.node? (place ++ [encode "en_US.php".toList])).isSome ∧
      again.1.node? (place ++ [encode "_manifest_exclude".toList]) = none ∧
      single.1.node? (place ++ [encode "_manifest_exclude".toList]) = some (.file []) := by
  decide +kernel

end Table
end Phrasebook
