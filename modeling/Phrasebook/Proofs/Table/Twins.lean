import Phrasebook.Proofs.Disk.Twins
import Phrasebook.Proofs.Table.Storing

/-!
# Tables on two disks

Writing a table looks at the trails of the marker and of the table only.  On two disks with nodes of
the same kinds there it has the same result, and it changes both alike: a table that was written is
the same on both, whatever was there before.
-/

namespace Phrasebook
namespace Table

open Disk (AlikeAlong AlikeResults SameShapeAlong SameShapeAt)
open Text (encode)

/-- The path of a table ends with the name of a file, even where the locale has slashes. -/
theorem exists_fileName?_pathOf
    (save : Path)
    (module locale : Text)
    (format : Format) :
    ∃ stem, (pathOf save module locale format).fileName? =
      some (stem ++ encode ('.' :: format.extension)) := by
  obtain ⟨front, whole⟩ :=
    Path.exists_bytes_join (folderOf save module) (encode (locale ++ '.' :: format.extension))
  have absent : Path.slash ∉ encode ('.' :: format.extension) := by cases format <;> decide
  obtain ⟨pieces, last, split, longer⟩ :=
    Text.exists_splitAt_append absent (front ++ encode locale)
  have noSlash : Path.slash ∉ last := by
    apply Text.separator_not_mem
    rw [split]
    exact List.mem_append_right pieces (List.mem_singleton_self last)
  refine ⟨last, ?_⟩
  apply Path.fileName?_of_splitAt (isPlainName_append_extension noSlash format)
  rw [pathOf, whole, Text.encode_append, ← List.append_assoc]
  exact longer

/-- The trails of a marker and of a table keep to some locations. -/
structure Keeps
    (disk : Disk)
    (places : Location → Prop)
    (save : Path)
    (module locale : Text)
    (format : Format) : Prop where
  /-- The trail of the marker keeps to them. -/
  marker : disk.Keeps places (markerIn (folderOf save module))
  /-- The trail of the table keeps to them. -/
  table : disk.Keeps places (pathOf save module locale format)

variable
  {places : Location → Prop}
  {first second : Disk}
  {save : Path}
  {module locale : Text}
  {format : Format}

theorem Keeps.congr
    (keeps : Keeps first places save module locale format)
    (here : second.here = first.here) :
    Keeps second places save module locale format :=
  ⟨keeps.marker.congr here, keeps.table.congr here⟩

theorem Keeps.folder (keeps : Keeps first places save module locale format) :
    first.Keeps places (folderOf save module) :=
  fun location member => keeps.marker location (Disk.mem_trail_join isPlainName_marker member)

theorem Keeps.mono
    (keeps : Keeps first places save module locale format)
    {more : Location → Prop}
    (included : ∀ location, places location → more location) :
    Keeps first more save module locale format :=
  ⟨fun location member => included location (keeps.marker location member),
    fun location member => included location (keeps.table location member)⟩

section TwoDisks

variable
  (here : second.here = first.here)
  (keeps : Keeps first (SameShapeAt first second) save module locale format)

include here keeps

theorem prepareFolder_alike (access : Access) :
    AlikeResults first second (prepareFolder first access (folderOf save module))
      (prepareFolder second access (folderOf save module)) := by
  have folder : SameShapeAlong first second (folderOf save module) := ⟨here, keeps.folder⟩
  have marker : SameShapeAlong first second (markerIn (folderOf save module)) :=
    ⟨here, keeps.marker⟩
  have made := Disk.makeFolders_alike folder access
  have marked := Disk.touch_alike (made.disks.sameShapeAlong marker) access
  unfold prepareFolder
  rw [Disk.holds_congr_of_sameShape folder]
  split
  · exact ⟨.refl first second, rfl⟩
  · simp only [made.results]
    split
    · exact ⟨made.disks, rfl⟩
    · refine ⟨made.disks.trans marked.disks, ?_⟩
      simp only [marked.results]

/-- A table is written alike past nodes of the same kinds. -/
theorem write_alike (access : Access) (entities : Entity.Map) :
    AlikeResults first second (write first access save module locale format entities)
      (write second access save module locale format entities) := by
  have table : SameShapeAlong first second (pathOf save module locale format) :=
    ⟨here, keeps.table⟩
  have prepared := prepareFolder_alike here keeps access
  obtain ⟨stem, named⟩ := exists_fileName?_pathOf save module locale format
  have written := Disk.write_alike (prepared.disks.sameShapeAlong table) named access
    (render format locale entities)
  unfold write
  generalize prepareFolder first access (folderOf save module) = one at prepared written ⊢
  generalize prepareFolder second access (folderOf save module) = other at prepared written ⊢
  obtain ⟨middle, result⟩ := one
  obtain ⟨middleOther, resultOther⟩ := other
  obtain rfl : resultOther = result := prepared.results
  cases resultOther with
  | error cause => exact ⟨prepared.disks, rfl⟩
  | ok =>
      refine ⟨prepared.disks.trans written.disks, ?_⟩
      simp only [written.results]

/-- A table that was written to both disks is found on both, and it is the same. -/
theorem alikeAlong_of_write
    {access : Access}
    {entities : Entity.Map}
    {after : Disk}
    {written : Written}
    (succeeded : write first access save module locale format entities = (after, .ok written)) :
    AlikeAlong after (write second access save module locale format entities).1
      (pathOf save module locale format) := by
  have alike := write_alike here keeps access entities
  have changed := alike.disks
  have results := alike.results
  rw [succeeded] at changed results
  have found := find_of_write succeeded
  have foundOther : (write second access save module locale format entities).1.find
      (pathOf save module locale format) = _ := find_of_write (Prod.ext rfl results)
  rw [Disk.target, here, ← Disk.target] at foundOther
  exact .of_same_find (changed.sameHere here) found foundOther

end TwoDisks

end Table
end Phrasebook
