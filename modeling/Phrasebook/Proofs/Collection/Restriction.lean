import Phrasebook.Proofs.Collection.Again
import Phrasebook.Proofs.Collection.Twins

/-!
# Collections of one module

The tables that a collection has written for other modules are no part of what it looks at at the
turn of a module.  So it makes no difference to a module whether it is collected alone or with all
the others: its entry in the report, the errors about it and its table are the same.
-/

namespace Phrasebook

open Text (encode)

namespace Collector

variable
  {collector : Collector}
  {first second : Disk}
  {modules : List Text}
  {module : Text}

/-- Where the tables of other modules have come, the one of a module needs what it needed. -/
theorem keeps_of_growsBy_others
    (unsaved : collector.settings.save = none)
    (noSlash : '/' ∉ collector.settings.locale)
    (grown : collector.GrowsBy modules first second)
    (found : first.find collector.settings.base =
      .ok (first.target collector.settings.base, .folder))
    (plain : Path.IsPlainName module)
    (fresh : module ∉ modules) :
    collector.Keeps first (Disk.SameAt first second) module := by
  have saved := saveFolder_eq_base unsaved
  have inModule (names : Location) :
      second.node? (first.target collector.settings.base ++ encode module :: names) =
        first.node? (first.target collector.settings.base ++ encode module :: names) :=
    grown.node?_eq (fun added => fresh (names_of_addedFor added).1)
      fun changed => fresh (names_of_addedFor (addedFor_of_changedFor changed)).1
  have folder : Disk.AlikeAlong first second
      (Table.folderOf collector.settings.saveFolder module) := by
    rw [saved]
    refine ((alikeOutsideTables_of_growsBy grown found).along_module plain).join
      Table.isPlainName_lang ?_
    rw [Disk.target_join first _ plain, List.append_assoc]
    exact inModule _
  have target := Table.target_folderOf first collector.settings.base plain
  constructor
  · refine (folder.join Table.isPlainName_marker ?_).nodes
    rw [saved, target, List.append_assoc]
    exact inModule _
  · refine (folder.join (Table.isPlainName_of_locale noSlash _) ?_).nodes
    rw [saved, target, List.append_assoc]
    exact inModule _

/-- A turn adds one entry on its module, and errors about it only. -/
theorem report_collectModule
    (collector : Collector)
    (progress : Progress)
    (module : Text) :
    let after := collector.collectModule progress module
    ∃ entry errors,
      after.report.modules = progress.report.modules ++ [entry] ∧
        after.report.errors = progress.report.errors ++ errors ∧
        entry.module = module ∧ (errors.map Unwritten.module).Sublist [module] := by
  intro after
  obtain ⟨entry, errors, added, failed, about, counted, -⟩ :=
    tellsTruth_collectModule collector progress module
  refine ⟨entry, errors, added, failed, ?_, about⟩
  rw [counted]
  exact module_survey collector progress.disk module

/-- The turns of modules add one entry on each of them, and errors about them only. -/
theorem report_foldl
    (collector : Collector)
    (modules : List Text)
    (progress : Progress) :
    let last := modules.foldl collector.collectModule progress
    ∃ entries errors,
      last.report.modules = progress.report.modules ++ entries ∧
        last.report.errors = progress.report.errors ++ errors ∧
        entries.map ModuleReport.module = modules ∧
        (errors.map Unwritten.module).Sublist modules := by
  induction modules generalizing progress with
  | nil => exact ⟨[], [], by simp, by simp, rfl, List.Sublist.refl []⟩
  | cons module modules ih =>
      obtain ⟨entry, errors, added, failed, named, about⟩ :=
        report_collectModule collector progress module
      obtain ⟨entries, others, addedLater, failedLater, modulesNamed, errorsNamed⟩ :=
        ih (collector.collectModule progress module)
      refine ⟨entry :: entries, errors ++ others, ?_, ?_, ?_, ?_⟩
      · rw [List.foldl_cons, addedLater, added, List.append_assoc, List.singleton_append]
      · rw [List.foldl_cons, failedLater, failed, List.append_assoc]
      · rw [List.map_cons, modulesNamed, named]
      · rw [List.map_append]
        exact about.append errorsNamed

/-- Entries that are named after other modules are none on a module. -/
theorem filter_module_eq_nil
    {entries : List ModuleReport}
    (named : entries.map ModuleReport.module = modules)
    (fresh : module ∉ modules) :
    entries.filter (fun entry => entry.module = module) = [] := by
  refine List.filter_eq_nil_iff.mpr fun entry member same => fresh ?_
  rw [← named, ← of_decide_eq_true same]
  exact List.mem_map_of_mem member

/-- The part of a report about one of several modules is what the turn of the module has added. -/
theorem report_foldl_of_nodup
    {front behind : List Text}
    (nodup : (front ++ module :: behind).Nodup)
    {start : Progress}
    (empty : start.report = {})
    {addition : Addition}
    (adds : (front.foldl collector.collectModule start).Adds
      (collector.collectModule (front.foldl collector.collectModule start) module) addition) :
    let report := ((front ++ module :: behind).foldl collector.collectModule start).report
    ∃ entry, addition.entries = [entry] ∧
      report.modules.filter (fun entry => entry.module = module) = [entry] ∧
      Unwritten.about report.errors module = addition.errors := by
  intro report
  have fresh := (List.nodup_cons.mp (List.nodup_middle.mp nodup)).1
  rw [List.mem_append, not_or] at fresh
  obtain ⟨freshFront, freshBehind⟩ := fresh
  obtain ⟨entriesFront, errorsFront, addedFront, failedFront, namedFront, aboutFront⟩ :=
    report_foldl collector front start
  obtain ⟨entry, errors, added, failed, named, aboutHere⟩ :=
    report_collectModule collector (front.foldl collector.collectModule start) module
  obtain ⟨entriesBehind, errorsBehind, addedBehind, failedBehind, namedBehind, aboutBehind⟩ :=
    report_foldl collector behind
      (collector.collectModule (front.foldl collector.collectModule start) module)
  have entries : [entry] = addition.entries := by
    rw [adds.report] at added
    exact (List.append_cancel_left added).symm
  have others : errors = addition.errors := by
    rw [adds.report] at failed
    exact (List.append_cancel_left failed).symm
  have allEntries : report.modules = entriesFront ++ [entry] ++ entriesBehind := by
    simp only [report, List.foldl_append, List.foldl_cons]
    rw [addedBehind, added, addedFront, empty]
    rfl
  have allErrors : report.errors = errorsFront ++ errors ++ errorsBehind := by
    simp only [report, List.foldl_append, List.foldl_cons]
    rw [failedBehind, failed, failedFront, empty]
    rfl
  refine ⟨entry, entries.symm, ?_, ?_⟩
  · rw [allEntries, List.filter_append, List.filter_append,
      filter_module_eq_nil namedFront freshFront, filter_module_eq_nil namedBehind freshBehind]
    simp [named]
  · rw [allErrors, about_append, about_append, about_eq_nil aboutFront freshFront,
      about_eq_nil aboutBehind freshBehind, List.nil_append, List.append_nil, ← others]
    refine List.filter_eq_self.mpr fun unwritten member => ?_
    have same := aboutHere.subset (List.mem_map_of_mem member)
    exact decide_eq_true (List.mem_singleton.mp same)

/--
Among other modules the turn of a module adds what it adds alone, and its table is the same in the
end.
-/
theorem collectModule_among_others
    (modular : collector.resolver = Include.find? collector.settings)
    (names : collector.settings.HaveOrdinaryNames)
    (unsaved : collector.settings.save = none)
    (noSlash : '/' ∉ collector.settings.locale)
    {disk : Disk}
    (found : disk.find collector.settings.base =
      .ok (disk.target collector.settings.base, .folder))
    {front behind : List Text}
    (plain : ∀ other ∈ front ++ module :: behind, Path.IsPlainName other)
    (nodup : (front ++ module :: behind).Nodup)
    (folders : ∀ other ∈ front ++ module :: behind, ∃ location,
      disk.find (collector.moduleFolder other) = .ok (location, .folder))
    {start alone : Progress}
    (startDisk : start.disk = disk)
    (aloneDisk : alone.disk = disk) :
    let before := front.foldl collector.collectModule start
    let last := (front ++ module :: behind).foldl collector.collectModule start
    (∃ addition, alone.Adds (collector.collectModule alone module) addition ∧
      before.Adds (collector.collectModule before module) addition) ∧
    last.disk.find (collector.tablePath module) =
      (collector.collectModule alone module).disk.find (collector.tablePath module) := by
  intro before last
  subst startDisk
  have fresh := (List.nodup_cons.mp (List.nodup_middle.mp nodup)).1
  rw [List.mem_append, not_or] at fresh
  obtain ⟨freshFront, freshBehind⟩ := fresh
  have plainHere : Path.IsPlainName module :=
    plain module (List.mem_append_right _ List.mem_cons_self)
  have inBehind {other : Text} (member : other ∈ module :: behind) :
      other ∈ front ++ module :: behind := List.mem_append_right front member
  -- Before its turn the tables of the modules in front have come.
  have grown : collector.GrowsBy front start.disk before.disk :=
    growsBy_foldl unsaved noSlash (fun other member => plain other (List.mem_append_left _ member))
      fun other member => folders other (List.mem_append_left _ member)
  have surveyed : collector.survey before.disk module = collector.survey alone.disk module := by
    rw [aloneDisk]
    exact survey_of_growsBy_others modular names found grown plainHere freshFront
  have keeps := keeps_of_growsBy_others unsaved noSlash grown found plainHere freshFront
  rw [← aloneDisk] at keeps
  have hereBefore : before.disk.here = alone.disk.here := by rw [grown.here, aloneDisk]
  have same := collectModule_alike hereBefore surveyed (keeps.mono fun _ equal => equal.shape)
  refine ⟨same.added, ?_⟩
  -- After its turn the tables of the modules behind come, and its own one stays.
  obtain ⟨location, folder⟩ := folders module (inBehind List.mem_cons_self)
  have turn := growsBy_collectModule unsaved noSlash plainHere (grown.find_folder folder)
  have rest : collector.GrowsBy behind (collector.collectModule before module).disk last.disk := by
    simp only [last, List.foldl_append, List.foldl_cons]
    refine growsBy_foldl unsaved noSlash
      (fun other member => plain other (inBehind (List.mem_cons_of_mem module member)))
      fun other member => ?_
    obtain ⟨place, inside⟩ := folders other (inBehind (List.mem_cons_of_mem module member))
    exact ⟨place, turn.find_folder (grown.find_folder inside)⟩
  have foundAfter := turn.find_folder (grown.find_folder found)
  rw [← grown.target, ← turn.target] at foundAfter
  have keepsLast := keeps_of_growsBy_others unsaved noSlash rest foundAfter plainHere freshBehind
  have here := (grows_collectModule collector alone module).here
  calc last.disk.find (collector.tablePath module)
      = (collector.collectModule before module).disk.find (collector.tablePath module) :=
        Disk.find_congr ((Disk.AlikeAt.of_here rest.here).along keepsLast.table)
    _ = (collector.collectModule alone module).disk.find (collector.tablePath module) :=
        Disk.find_congr
          ((same.disks.alikeAt (.of_here hereBefore)).along (keeps.table.congr here))

/--
A collection of one module agrees with the collection of all modules.  When the modules can be
listed, the module that is asked for has the same entry in both reports, the same errors, and the
same table on both disks, although in the collection of all modules others have their turns before
it and after it.
-/
theorem run_some_agrees
    {disk : Disk}
    {report : Report}
    {path : Text}
    (modular : collector.resolver = Include.find? collector.settings)
    (valid : collector.settings.validate = .ok ())
    (names : collector.settings.HaveOrdinaryNames)
    (unsaved : collector.settings.save = none)
    (accepted : collector.isModule disk module = true)
    (asked : (Path.ofText path).textName? = some module)
    (ran : (collector.run disk none).result = .ok report) :
    let all := collector.run disk none
    let single := collector.run disk (some path)
    ∃ entry errors,
      single.result = .ok { modules := [entry], warningCount := entry.warnings, errors } ∧
      report.modules.filter (fun entry => entry.module = module) = [entry] ∧
      Unwritten.about report.errors module = errors ∧
      all.disk.find (collector.tablePath module) =
        single.disk.find (collector.tablePath module) := by
  intro all single
  have noSlash := noSlash_of_validate valid
  cases listed : collector.modules disk none with
  | error unlisted => simp [run, listed] at ran
  | ok modules =>
      obtain ⟨candidates, allNames, -⟩ := Outcome.map_eq_ok_iff.mp listed
      obtain ⟨location, found, -⟩ := candidates_none_eq_ok allNames
      obtain rfl : location = disk.target collector.settings.base := (Disk.find_eq_ok found).1
      have plain : ∀ other ∈ modules, Path.IsPlainName other := fun _ member =>
        (of_mem_modules listed member).1
      have folders : ∀ other ∈ modules, ∃ location,
          disk.find (collector.moduleFolder other) = .ok (location, .folder) := fun _ member =>
        exists_find_of_mem_modules listed member
      have nodup := nodup_modules listed
      obtain ⟨start, startDisk, empty, lastDisk, result⟩ := exists_start_of_modules listed
      obtain ⟨alone, aloneDisk, emptyAlone, singleDisk, singleResult⟩ :=
        exists_start_of_modules (modules_some asked accepted)
      obtain ⟨front, behind, rfl⟩ := List.append_of_mem
        (mem_modules_of_isModule listed (Path.isPlainName_of_textName? asked) accepted)
      obtain ⟨⟨addition, addsAlone, adds⟩, table⟩ :=
        collectModule_among_others modular names unsaved noSlash found plain nodup folders startDisk
          aloneDisk
      obtain ⟨entry, entries, entryOf, errorsOf⟩ := report_foldl_of_nodup nodup empty adds
      rw [result, Except.ok.injEq] at ran
      rw [ran] at entryOf errorsOf
      refine ⟨entry, addition.errors, ?_, entryOf, errorsOf, ?_⟩
      · have added := addsAlone.report
        have counted := isCounted_run singleResult
        rw [emptyAlone, List.nil_append, List.nil_append, entries] at added
        rw [List.foldl_cons, List.foldl_nil, added] at counted
        rw [singleResult, List.foldl_cons, List.foldl_nil, added]
        exact congrArg (fun count => Except.ok (Report.mk [entry] count addition.errors)) counted
      · rw [lastDisk, singleDisk]
        exact table

/-- A module that includes a template of an earlier one is collected alone as with the other. -/
theorem run_some_agrees_include :
    let disk : Disk :=
      (((((((((Disk.blank.graft [] "blog".toList .folder).graft
        [encode "blog".toList] "_config.php".toList (.file [])).graft
        [encode "blog".toList] "templates".toList .folder).graft
        [encode "blog".toList, encode "templates".toList] "Includes".toList .folder).graft
        [encode "blog".toList, encode "templates".toList, encode "Includes".toList]
          "Footer.ss".toList (.file (encode "<% _t('BACK', 'Back') %>".toList))).graft
        [] "cms".toList .folder).graft
        [encode "cms".toList] "_config.php".toList (.file [])).graft
        [encode "cms".toList] "templates".toList .folder).graft
        [encode "cms".toList, encode "templates".toList] "Page.ss".toList
          (.file (encode "<% include Footer %>".toList)))
    let collector : Collector := { settings := {}, ignored := [] }
    let report : Report :=
      { modules := [⟨"blog".toList, 1, 0, 0, 1, some ⟨"./blog/lang/en_US.php".toList⟩⟩,
          ⟨"cms".toList, 1, 0, 0, 1, some ⟨"./cms/lang/en_US.php".toList⟩⟩] }
    collector.settings.validate = .ok () ∧ collector.isModule disk "cms".toList = true ∧
      (collector.run disk none).result = .ok report ∧
      ∃ entry errors,
        (collector.run disk (some "themes/cms".toList)).result =
            .ok { modules := [entry], warningCount := entry.warnings, errors } ∧
        report.modules.filter (fun entry => entry.module = "cms".toList) = [entry] := by
  intro disk collector report
  have valid : collector.settings.validate = .ok () := by decide +kernel
  have accepted : collector.isModule disk "cms".toList = true := by decide +kernel
  have ran : (collector.run disk none).result = .ok report := by decide +kernel
  have asked : (Path.ofText "themes/cms".toList).textName? = some "cms".toList := by
    decide +kernel
  obtain ⟨entry, errors, single, entryOf, -⟩ := run_some_agrees rfl valid
    Settings.areOrdinary_default.names rfl accepted asked ran
  exact ⟨valid, accepted, ran, entry, errors, single, entryOf⟩

end Collector
end Phrasebook
