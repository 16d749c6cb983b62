import Phrasebook.Proofs.Collection.Report
import Phrasebook.Proofs.Survey.Outside

/-!
# Places of tables

Without a folder of their own the tables of modules lie in the modules.  A collection then adds a
folder, a marker and a file to each of its modules at most, and changes nothing but these files.
-/

namespace Phrasebook

open Text (encode)

namespace Collector

/-- The location belongs to the table of one of the modules. -/
def AddedFor (collector : Collector) (base : Location) (modules : List Text)
    (location : Location) : Prop :=
  ∃ module ∈ modules,
    location ∈ Table.places base module collector.settings.locale collector.settings.format

/-- The location is that of the table of one of the modules. -/
def ChangedFor (collector : Collector) (base : Location) (modules : List Text)
    (location : Location) : Prop :=
  ∃ module ∈ modules,
    location = base ++ [encode module, encode "lang".toList,
      encode (collector.settings.locale ++ '.' :: collector.settings.format.extension)]

/-- A disk has grown by the tables of some modules. -/
abbrev GrowsBy (collector : Collector) (modules : List Text) (before after : Disk) : Prop :=
  Disk.Grows (collector.AddedFor (before.target collector.settings.base) modules)
    (collector.ChangedFor (before.target collector.settings.base) modules) before after

variable
  {collector : Collector}
  {base location : Location}
  {modules : List Text}
  {first second : Disk}

theorem addedFor_of_changedFor (changed : collector.ChangedFor base modules location) :
    collector.AddedFor base modules location := by
  obtain ⟨module, member, rfl⟩ := changed
  exact ⟨module, member, by simp [Table.places]⟩

theorem inTables_of_addedFor (added : collector.AddedFor base modules location) :
    InTables base location := by
  obtain ⟨module, -, place⟩ := added
  simp only [Table.places, List.mem_cons, List.not_mem_nil, or_false] at place
  rcases place with rfl | rfl | rfl
  · exact ⟨module, [], rfl⟩
  · exact ⟨module, ["_manifest_exclude".toList], by simp⟩
  · exact ⟨module, [_], List.append_assoc ..⟩

/-- A disk that has grown by tables is alike outside of their folders. -/
theorem alikeOutsideTables_of_growsBy
    (grows : collector.GrowsBy modules first second)
    (found : first.find collector.settings.base =
      .ok (first.target collector.settings.base, .folder)) :
    AlikeOutsideTables collector.settings.base first second := by
  refine ⟨grows.here, grows.kept, found, fun location outside => grows.node?_eq ?_ ?_⟩
  · exact fun added => outside (inTables_of_addedFor added)
  · exact fun changed => outside (inTables_of_addedFor (addedFor_of_changedFor changed))

theorem GrowsBy.mono
    {more : List Text}
    (grows : collector.GrowsBy modules first second)
    (subset : modules ⊆ more) :
    collector.GrowsBy more first second := by
  refine Disk.Grows.mono grows (fun location added => ?_) fun location changed => ?_
  · obtain ⟨module, member, place⟩ := added
    exact ⟨module, subset member, place⟩
  · obtain ⟨module, member, place⟩ := changed
    exact ⟨module, subset member, place⟩

theorem GrowsBy.trans
    {third : Disk}
    (grows : collector.GrowsBy modules first second)
    (later : collector.GrowsBy modules second third) :
    collector.GrowsBy modules first third := by
  unfold GrowsBy at later
  rw [Disk.Grows.target grows] at later
  exact Disk.Grows.trans grows later

/-- The turn of a module that is there adds no more than the table of the module needs. -/
theorem growsBy_collectModule
    (unsaved : collector.settings.save = none)
    (noSlash : '/' ∉ collector.settings.locale)
    {module : Text}
    (plain : Path.IsPlainName module)
    {progress : Progress}
    (found : progress.disk.find (collector.moduleFolder module) = .ok (location, .folder)) :
    collector.GrowsBy [module] progress.disk (collector.collectModule progress module).disk := by
  have saved := saveFolder_eq_base unsaved
  rw [moduleFolder, ← saved] at found
  have stored := Table.grows_write_of_find plain noSlash found collector.access
    collector.settings.format (collector.survey progress.disk module).entities
  have grows : collector.GrowsBy [module] progress.disk
      (collector.attempt progress.disk module).1 := by
    refine stored.mono (fun location place => ?_) fun location place => ?_
    · exact ⟨module, List.mem_singleton_self module, saved ▸ place⟩
    · refine ⟨module, List.mem_singleton_self module, ?_⟩
      rw [place, Table.target_pathOf _ _ _ plain noSlash, saved]
  cases collectModule_ends collector progress module with
  | idle nothing same report => rw [same]
  | written something table done report => rwa [done] at grows
  | failed something cause done report => rwa [done] at grows

/-- The turns of modules that are there add no more than their tables need. -/
theorem growsBy_foldl
    (unsaved : collector.settings.save = none)
    (noSlash : '/' ∉ collector.settings.locale)
    (plain : ∀ module ∈ modules, Path.IsPlainName module)
    {progress : Progress}
    (found : ∀ module ∈ modules, ∃ location,
      progress.disk.find (collector.moduleFolder module) = .ok (location, .folder)) :
    collector.GrowsBy modules progress.disk
      (modules.foldl collector.collectModule progress).disk := by
  induction modules generalizing progress with
  | nil => exact .refl _
  | cons module modules ih =>
      obtain ⟨plainHere, plain⟩ := List.forall_mem_cons.mp plain
      obtain ⟨⟨location, here⟩, found⟩ := List.forall_mem_cons.mp found
      have turn := growsBy_collectModule unsaved noSlash plainHere here
      refine (turn.mono (by simp)).trans ((ih plain fun other member => ?_).mono (by simp))
      obtain ⟨place, before⟩ := found other member
      exact ⟨place, turn.find_folder before⟩

end Collector
end Phrasebook
