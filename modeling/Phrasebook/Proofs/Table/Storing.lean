import Phrasebook.Proofs.Disk.Growth
import Phrasebook.Proofs.Text.Bytes
import Phrasebook.Table.Store

/-!
# Tables on disks

Writing the table of a module changes its file and nothing else that is there.  In the folder of a
module it adds the folder of tables, the marker and the file at most.  A table that was written is
found at its path, and writing it once more to a disk that still has it leaves the disk as it is.
Wherever the tables are to be saved, no more than the folders above them is made besides.
-/

namespace Phrasebook
namespace Table

open Disk (Footprint Grows Touched Unchanged)
open Text (encode)

theorem isPlainName_lang : Path.IsPlainName "lang".toList := by
  constructor <;> decide

theorem isPlainName_marker : Path.IsPlainName "_manifest_exclude".toList := by
  constructor <;> decide

/-- What is in front of the suffix of a table makes a plain name with it, if it has no slash. -/
theorem isPlainName_append_extension
    {stem : Bytes}
    (noSlash : Path.slash ∉ stem)
    (format : Format) :
    Path.IsPlainName (stem ++ encode ('.' :: format.extension)) := by
  have extension : Path.slash ∉ encode ('.' :: format.extension) ∧
      3 < (encode ('.' :: format.extension)).length := by
    cases format <;> decide
  have long : 3 < (stem ++ encode ('.' :: format.extension)).length := by
    rw [List.length_append]
    omega
  refine ⟨fun same => ?_, fun same => ?_, fun same => ?_, fun slash => ?_⟩
  · simp [same] at long
  · simp [same] at long
  · simp [same] at long
  · rcases List.mem_append.mp slash with inStem | inExtension
    · exact noSlash inStem
    · exact extension.1 inExtension

/-- A locale without a slash makes a plain name for a table. -/
theorem isPlainName_of_locale
    {locale : Text}
    (noSlash : '/' ∉ locale)
    (format : Format) :
    Path.IsPlainName (encode (locale ++ '.' :: format.extension)) := by
  rw [Text.encode_append]
  exact isPlainName_append_extension (mt Text.standsFor_slash.mem_encode_iff.mp noSlash) format

variable
  {disk : Disk}
  {access : Access}
  {save : Path}
  {module locale : Text}
  {format : Format}
  {entities : Entity.Map}

theorem target_folderOf
    (disk : Disk)
    (save : Path)
    (plain : Path.IsPlainName module) :
    disk.target (folderOf save module) =
      disk.target save ++ [encode module, encode "lang".toList] :=
  Disk.target_join_join disk save plain isPlainName_lang

theorem target_pathOf
    (disk : Disk)
    (save : Path)
    (format : Format)
    (plain : Path.IsPlainName module)
    (noSlash : '/' ∉ locale) :
    disk.target (pathOf save module locale format) =
      disk.target save ++
        [encode module, encode "lang".toList, encode (locale ++ '.' :: format.extension)] := by
  rw [pathOf, Disk.target_join disk _ (isPlainName_of_locale noSlash format),
    target_folderOf disk save plain]
  simp

/-! ## Footprints -/

/-- Where writing the table of a module may change a disk. -/
def footprint
    (disk : Disk)
    (save : Path)
    (module locale : Text)
    (format : Format) :
    Footprint where
  made := fun location =>
    ∃ above, above.IsAbove (folderOf save module) ∧ location = disk.target above
  created := (· = disk.target (markerIn (folderOf save module)))
  written := (· = disk.target (pathOf save module locale format))

theorem touched_prepareFolder
    (disk : Disk)
    (access : Access)
    (save : Path)
    (module locale : Text)
    (format : Format) :
    Touched (footprint disk save module locale format) disk
      (prepareFolder disk access (folderOf save module)).1 := by
  unfold prepareFolder
  split
  · exact .refl _ disk
  · have made := Disk.touched_makeFolders disk access (folderOf save module)
    have early : Touched (footprint disk save module locale format) disk
        (disk.makeFolders access (folderOf save module)).disk :=
      made.mono ⟨fun _ => id, fun _ => False.elim, fun _ => False.elim⟩
    simp only
    split
    · exact early
    · refine early.trans ((Disk.touched_touch _ access _).mono
        ⟨fun _ => False.elim, ?_, fun _ => False.elim⟩)
      rintro location rfl
      exact early.target _

/-- Writing the table of a module stays within its footprint, whether it succeeds or not. -/
theorem touched_write
    (disk : Disk)
    (access : Access)
    (save : Path)
    (module locale : Text)
    (format : Format)
    (entities : Entity.Map) :
    Touched (footprint disk save module locale format) disk
      (write disk access save module locale format entities).1 := by
  have prepared := touched_prepareFolder disk access save module locale format
  unfold write
  split
  next failed => rwa [failed] at prepared
  next middle ready =>
    rw [ready] at prepared
    refine prepared.trans ((Disk.touched_write middle access _ _).mono
      ⟨fun _ => False.elim, fun _ => False.elim, ?_⟩)
    rintro location rfl
    exact prepared.target _

/-! ## Growth -/

/-- In a folder that is there, only the folder of tables and its marker are added. -/
theorem grows_prepareFolder_join
    {base : Path}
    {location : Location}
    (inFolder : disk.find base = .ok (location, .folder))
    (access : Access) :
    let folder := base.join "lang".toList
    Grows (fun other => other = disk.target folder ∨ other = disk.target (markerIn folder))
      Unchanged disk (prepareFolder disk access folder).1 := by
  intro folder
  unfold prepareFolder
  split
  · exact .refl disk
  · have made := Disk.grows_makeFolders_join isPlainName_lang inFolder access
    simp only
    split
    · exact made.mono (fun _ => .inl) fun _ => id
    · have marked := Disk.grows_touch (disk.makeFolders access folder).disk access (markerIn folder)
      rw [made.target] at marked
      exact (made.mono (fun _ => .inl) fun _ => id).trans (marked.mono (fun _ => .inr) fun _ => id)

/-- The locations that the table of a module needs: its folder, the marker and its file. -/
def places (base : Location) (module locale : Text) (format : Format) : List Location :=
  let folder := base ++ [encode module, encode "lang".toList]
  [folder, folder ++ [encode "_manifest_exclude".toList],
    folder ++ [encode (locale ++ '.' :: format.extension)]]

theorem grows_write_of_grows_prepareFolder
    {added : Location → Prop}
    (prepared : Grows added Unchanged disk (prepareFolder disk access (folderOf save module)).1)
    (atTable : added (disk.target (pathOf save module locale format))) :
    Grows added (· = disk.target (pathOf save module locale format)) disk
      (write disk access save module locale format entities).1 := by
  have here := prepared.target (pathOf save module locale format)
  have first : Grows added (· = disk.target (pathOf save module locale format)) disk
      (prepareFolder disk access (folderOf save module)).1 :=
    prepared.mono (fun _ => id) fun _ => False.elim
  unfold write
  split
  next failed =>
    rw [failed] at first
    exact first
  next middle ready =>
    rw [ready] at first here
    have second := Disk.grows_write middle access (pathOf save module locale format)
      (render format locale entities)
    rw [here] at second
    exact first.trans (second.mono (fun _ same => same ▸ atTable) fun _ => id)

/-- Writing a table changes no other file. -/
theorem grows_write
    (disk : Disk)
    (access : Access)
    (save : Path)
    (module locale : Text)
    (format : Format)
    (entities : Entity.Map) :
    Grows (fun _ => True) (· = disk.target (pathOf save module locale format)) disk
      (write disk access save module locale format entities).1 :=
  .of_touched (touched_write disk access save module locale format entities) (fun _ _ => trivial)
    (fun _ _ => trivial) fun _ same => ⟨trivial, same⟩

/-- In the folder of a module, writing a table adds what the table needs at most. -/
theorem grows_write_of_find
    {location : Location}
    (plain : Path.IsPlainName module)
    (noSlash : '/' ∉ locale)
    (inFolder : disk.find (save.join module) = .ok (location, .folder))
    (access : Access)
    (format : Format)
    (entities : Entity.Map) :
    Grows (· ∈ places (disk.target save) module locale format)
      (· = disk.target (pathOf save module locale format)) disk
      (write disk access save module locale format entities).1 := by
  have folder := target_folderOf disk save plain
  refine grows_write_of_grows_prepareFolder ?_ ?_
  · refine (grows_prepareFolder_join inFolder access).mono (fun other place => ?_) fun _ => id
    rw [markerIn, Disk.target_join disk _ isPlainName_marker, ← folderOf, folder] at place
    rcases place with rfl | rfl <;> simp [places]
  · rw [target_pathOf disk save format plain noSlash]
    simp [places]

/-! ## Tables that were written -/

/-- What is said of a table that was written. -/
def writtenAt (path : Path) (entities : Entity.Map) : Written :=
  ⟨path, entities.size - (skipped entities).length, skipped entities⟩

/-- A table is written when its folder is ready and its file is written. -/
theorem write_eq_ok_iff
    {after : Disk}
    {written : Written} :
    write disk access save module locale format entities = (after, .ok written) ↔
      written = writtenAt (pathOf save module locale format) entities ∧
        ∃ middle, prepareFolder disk access (folderOf save module) = (middle, .ok ()) ∧
          middle.write access (pathOf save module locale format)
            (render format locale entities) = ⟨after, .ok ()⟩ := by
  constructor
  · intro succeeded
    unfold write at succeeded
    split at succeeded
    · simp at succeeded
    next middle ready =>
      cases attempt : middle.write access (pathOf save module locale format)
        (render format locale entities) with
      | mk last result =>
          cases result with
          | error cause => simp [attempt] at succeeded
          | ok =>
              simp only [attempt, Prod.mk.injEq, Except.ok.injEq] at succeeded
              obtain ⟨rfl, rfl⟩ := succeeded
              exact ⟨rfl, middle, ready, attempt⟩
  · rintro ⟨rfl, middle, ready, done⟩
    rw [write, ready]
    simp only [done]
    rfl

variable {after : Disk} {written : Written}

/-- A table that was written is found at its path. -/
theorem find_of_write
    (succeeded : write disk access save module locale format entities = (after, .ok written)) :
    after.find (pathOf save module locale format) =
      .ok (disk.target (pathOf save module locale format),
        .file (Text.encode (render format locale entities))) := by
  obtain ⟨-, middle, ready, done⟩ := write_eq_ok_iff.mp succeeded
  have prepared := touched_prepareFolder disk access save module locale format
  rw [ready] at prepared
  have wrote : (middle.write access (pathOf save module locale format)
      (render format locale entities)).result = .ok () := by rw [done]
  have found := Disk.find_of_write wrote
  rwa [done, prepared.target] at found

/-- A table that is written again on a disk that still has it leaves this disk as it is. -/
theorem write_self
    {added changed : Location → Prop}
    {last : Disk}
    (noSlash : '/' ∉ locale)
    (succeeded : write disk access save module locale format entities = (after, .ok written))
    (grows : Grows added changed after last)
    (present : last.node? (disk.target (pathOf save module locale format)) =
      some (.file (Text.encode (render format locale entities)))) :
    write last access save module locale format entities = (last, .ok written) := by
  obtain ⟨same, middle, ready, done⟩ := write_eq_ok_iff.mp succeeded
  refine write_eq_ok_iff.mpr ⟨same, last, ?_, ?_⟩
  · have nonempty := Path.bytes_join_ne_nil (save.join module) isPlainName_lang
    have folder := Disk.find_of_find_join (isPlainName_of_locale noSlash format).head?_ne nonempty
      (find_of_write succeeded)
    rw [prepareFolder, Disk.holds, folderOf, grows.find_folder folder]
    rfl
  · have prepared := touched_prepareFolder disk access save module locale format
    have stored := Disk.grows_write middle access (pathOf save module locale format)
      (render format locale entities)
    rw [ready] at prepared
    rw [done] at stored
    have whole : Grows (fun _ => True) (fun _ => True) middle last :=
      (stored.mono (fun _ _ => trivial) fun _ _ => trivial).trans
        (grows.mono (fun _ _ => trivial) fun _ _ => trivial)
    refine Disk.write_self (by rw [done]) whole ?_
    rwa [prepared.target]

end Table
end Phrasebook
