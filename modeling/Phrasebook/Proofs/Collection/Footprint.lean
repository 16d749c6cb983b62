import Phrasebook.Proofs.Collection.Report

/-!
# Footprints of collections

Wherever the tables are to be saved, a collection writes to the folders of tables of its modules
only, and only for modules for which something is collected.  It makes such a folder with those
above it, creates the marker where there was none, and writes the table.  Operations that fail on
the way do not change this.
-/

namespace Phrasebook
open Text (encode)

namespace Collector

open Disk (Footprint Touched)

/-- A module of a collection for which something is collected at its turn. -/
def Yields (collector : Collector) (disk : Disk) (modules : List Text) (module : Text) : Prop :=
  ∃ turn ∈ collector.turns disk modules,
    turn.module = module ∧ (collector.surveyAt turn).entities.isEmpty = false

/-- Where the tables of some modules may change a disk. -/
def footprint (collector : Collector) (disk : Disk) (stored : Text → Prop) : Footprint :=
  let ofModule (module : Text) : Footprint :=
    Table.footprint disk collector.settings.saveFolder module collector.settings.locale
      collector.settings.format
  { made := fun location => ∃ module, stored module ∧ (ofModule module).made location
    created := fun location => ∃ module, stored module ∧ (ofModule module).created location
    written := fun location => ∃ module, stored module ∧ (ofModule module).written location }

variable
  {collector : Collector}
  {disk other : Disk}
  {modules : List Text}
  {module : Text}

/-- The footprint of tables depends on the working folder only. -/
theorem footprint_congr
    (here : other.here = disk.here)
    (stored : Text → Prop) :
    collector.footprint other stored = collector.footprint disk stored := by
  have same : other.target = disk.target := by
    funext path
    rw [Disk.target, Disk.target, here]
  unfold footprint Table.footprint
  rw [same]

theorem footprint_within
    {stored more : Text → Prop}
    (included : ∀ module, stored module → more module) :
    (collector.footprint disk stored).Within (collector.footprint disk more) := by
  constructor
  · rintro location ⟨module, isStored, allowed⟩
    exact ⟨module, included module isStored, allowed⟩
  · rintro location ⟨module, isStored, allowed⟩
    exact ⟨module, included module isStored, allowed⟩
  · rintro location ⟨module, isStored, allowed⟩
    exact ⟨module, included module isStored, allowed⟩

theorem touched_attempt (collector : Collector) (disk : Disk) (module : Text) :
    Touched (collector.footprint disk (· = module)) disk
      (collector.attempt disk module).1 := by
  have written := Table.touched_write disk collector.access collector.settings.saveFolder module
    collector.settings.locale collector.settings.format (collector.survey disk module).entities
  refine written.mono ⟨?_, ?_, ?_⟩
  · exact fun location allowed => ⟨module, rfl, allowed⟩
  · exact fun location allowed => ⟨module, rfl, allowed⟩
  · exact fun location allowed => ⟨module, rfl, allowed⟩

/-- A turn stays within the footprint of the table of the module, if something is collected. -/
theorem touched_collectModule
    (collector : Collector)
    (progress : Progress)
    (module : Text) :
    Touched
      (collector.footprint progress.disk fun name =>
        name = module ∧ (collector.survey progress.disk module).entities.isEmpty = false)
      progress.disk (collector.collectModule progress module).disk := by
  have attempted := touched_attempt collector progress.disk module
  cases collectModule_ends collector progress module with
  | idle nothing same report => rw [same]
  | written something table done report =>
      rw [done] at attempted
      exact attempted.mono (footprint_within fun name same => ⟨same, something⟩)
  | failed something cause done report =>
      rw [done] at attempted
      exact attempted.mono (footprint_within fun name same => ⟨same, something⟩)

/-- The turns of modules stay within the footprint of the tables of those that yield something. -/
theorem touched_foldl
    (collector : Collector)
    (modules : List Text)
    (progress : Progress) :
    Touched (collector.footprint progress.disk (collector.Yields progress.disk modules))
      progress.disk (modules.foldl collector.collectModule progress).disk := by
  induction modules generalizing progress with
  | nil => exact .refl _ progress.disk
  | cons module modules ih =>
      have first := touched_collectModule collector progress module
      have rest := ih (collector.collectModule progress module)
      rw [footprint_congr first.here] at rest
      refine (first.mono (footprint_within ?_)).trans (rest.mono (footprint_within ?_))
      · rintro name ⟨rfl, something⟩
        exact ⟨_, List.mem_cons_self, rfl, something⟩
      · rintro name ⟨turn, member, named, something⟩
        refine ⟨turn, ?_, named, something⟩
        rw [turns, disk_collectModule]
        exact List.mem_cons_of_mem _ member

theorem of_yields
    {filter : Option Text}
    (listed : collector.modules disk filter = .ok modules)
    (yields : collector.Yields disk modules module) :
    Path.IsPlainName module ∧ collector.isModule disk module = true := by
  obtain ⟨turn, member, rfl, -⟩ := yields
  apply of_mem_modules listed
  rw [← map_module_turns collector disk modules]
  exact List.mem_map_of_mem member

/--
A collection changes only files and folders for the tables of its modules, in the folders in which
these are to be saved.  Whatever has changed is there for a module for which something is collected:
it is the table of the module, which is written over a file at most, the marker, which is created
empty where nothing was, or a folder above them that was not there.  A collection that ends with an
error has changed nothing.
-/
theorem run_changes_tables_only
    (valid : collector.settings.validate = .ok ())
    (disk : Disk)
    (filter : Option Text) :
    let after := collector.run disk filter
    let settings := collector.settings
    (∀ unlisted, after.result = .error unlisted → after.disk = disk) ∧
      after.disk.here = disk.here ∧
      ∀ location, after.disk.node? location ≠ disk.node? location →
        ∃ modules, ∃ module : Text, collector.modules disk filter = .ok modules ∧
          Path.IsPlainName module ∧ collector.isModule disk module = true ∧
          collector.Yields disk modules module ∧
          let folder :=
            disk.target settings.saveFolder ++ [encode module, encode "lang".toList]
          (location = folder ++ [encode (settings.locale ++ '.' :: settings.format.extension)] ∧
            disk.node? location ≠ some .folder ∧
            ∃ content, after.disk.node? location = some (.file content)) ∨
          (location = folder ++ [encode "_manifest_exclude".toList] ∧
            disk.node? location = none ∧ after.disk.node? location = some (.file [])) ∨
          ((∃ above, Path.IsAbove above (Table.folderOf settings.saveFolder module) ∧
              location = disk.target above) ∧
            disk.node? location = none ∧ after.disk.node? location = some .folder) := by
  intro after settings
  cases listed : collector.modules disk filter with
  | error unlisted =>
      have same : after.disk = disk := by simp [after, run, listed]
      rw [same]
      exact ⟨fun _ _ => rfl, rfl, fun location changed => absurd rfl changed⟩
  | ok modules =>
      obtain ⟨start, startDisk, -, lastDisk, result⟩ := exists_start_of_modules listed
      have touched := touched_foldl collector modules start
      rw [← lastDisk, startDisk] at touched
      refine ⟨?_, touched.here, fun location changed => ?_⟩
      · intro unlisted failed
        rw [result] at failed
        cases failed
      have change := touched.change location
      have noSlash := noSlash_of_validate valid
      generalize disk.node? location = before at change changed ⊢
      generalize after.disk.node? location = last at change changed ⊢
      cases change with
      | stay => exact absurd rfl changed
      | make allowed =>
          obtain ⟨module, yields, isAbove⟩ := allowed
          obtain ⟨plain, accepted⟩ := of_yields listed yields
          refine ⟨modules, module, rfl, plain, accepted, yields, .inr (.inr ?_)⟩
          exact ⟨isAbove, rfl, rfl⟩
      | create allowed =>
          obtain ⟨module, yields, isMarker⟩ := allowed
          obtain ⟨plain, accepted⟩ := of_yields listed yields
          refine ⟨modules, module, rfl, plain, accepted, yields, .inr (.inl ?_)⟩
          refine ⟨?_, rfl, rfl⟩
          rw [← Table.target_folderOf disk _ plain]
          exact isMarker.trans (Disk.target_join disk _ Table.isPlainName_marker)
      | write allowed noFolder content =>
          obtain ⟨module, yields, isTable⟩ := allowed
          obtain ⟨plain, accepted⟩ := of_yields listed yields
          refine ⟨modules, module, rfl, plain, accepted, yields, .inl ?_⟩
          refine ⟨?_, noFolder, content, rfl⟩
          rw [← Table.target_folderOf disk _ plain]
          exact isTable.trans (Disk.target_join disk _ (Table.isPlainName_of_locale noSlash _))

/-- A folder for the tables that is not there yet is made for the one module that has entities. -/
theorem run_changes_tables_only_saved :
    let cms : Location := [encode "cms".toList]
    let disk : Disk :=
      (((Disk.blank.graft [] "cms".toList .folder).graft cms "_config.php".toList
        (.file [])).graft cms "code".toList .folder).graft (cms ++ [encode "code".toList])
          "Page.php".toList (.file (encode "_t('A.B', 'Save')".toList))
    let collector : Collector :=
      { settings := { save := some (.ofText "export".toList) }, ignored := [] }
    let after := collector.run disk none
    let place : Location := [encode "export".toList]
    collector.settings.validate = .ok () ∧
      after.disk.node? place = some .folder ∧ disk.node? place = none ∧
      ∃ modules module, collector.modules disk none = .ok modules ∧
        collector.isModule disk module = true ∧ collector.Yields disk modules module := by
  intro cms disk collector after place
  have valid : collector.settings.validate = .ok () := by decide +kernel
  have present : after.disk.node? place = some .folder := by decide +kernel
  have absent : disk.node? place = none := by decide +kernel
  obtain ⟨-, -, changes⟩ := run_changes_tables_only valid disk none
  have changed : after.disk.node? place ≠ disk.node? place := by
    rw [present, absent]
    simp
  obtain ⟨modules, module, listed, -, accepted, yields, -⟩ := changes _ changed
  exact ⟨valid, present, absent, modules, module, listed, accepted, yields⟩

end Collector
end Phrasebook
