import Phrasebook.Proofs.Collection.Places

/-!
# Collections that are repeated

What a collection has written is no source of entities for the next one, with one exception: the
module of the framework may be read as a whole, and then its table is read with it.  Where that
table is passed over or holds no call sites, a second collection has the same modules, entities and
warnings as the first, and it leaves the disk as it is.
-/

namespace Phrasebook

open Outcome
open Text (encode)

/-- Reports on a module that differ in the number of files at most. -/
structure ModuleReport.Agrees (first second : ModuleReport) : Prop where
  /-- They are on the same module. -/
  module : second.module = first.module
  /-- They count the same entities. -/
  entities : second.entities = first.entities
  /-- They count the same overwritings. -/
  overwritten : second.overwritten = first.overwritten
  /-- They count the same warnings. -/
  warnings : second.warnings = first.warnings
  /-- They name the same table. -/
  output : second.output = first.output

theorem ModuleReport.map_warnings_of_agrees
    {entries others : List ModuleReport}
    (agrees : List.Forall₂ ModuleReport.Agrees entries others) :
    others.map ModuleReport.warnings = entries.map ModuleReport.warnings := by
  induction agrees with
  | nil => rfl
  | cons here _ ih => rw [List.map_cons, List.map_cons, here.warnings, ih]

namespace Collector

/--
The table of a module gives nothing to a survey of the module: it is not among the files that are
read for code, or it can be read and holds no call sites.
-/
def TableIsQuiet (collector : Collector) (disk : Disk) (module : Text) : Prop :=
  collector.tablePath module ∈ collector.codeFiles disk module →
    ∃ text, disk.readLossy collector.access (collector.tablePath module) = .ok text ∧
      CallSite.scan collector.settings.function text = []

variable
  {collector : Collector}
  {base : Location}
  {modules : List Text}
  {module : Text}
  {first second : Disk}

theorem tablePath_eq
    (unsaved : collector.settings.save = none)
    (module : Text) :
    collector.tablePath module =
      [encode "lang".toList,
        encode (collector.settings.locale ++ '.' :: collector.settings.format.extension)].foldl
        Path.join (collector.moduleFolder module) := by
  rw [tablePath, saveFolder_eq_base unsaved]
  rfl

/-- A location of a module that belongs to a table belongs to the one of the module. -/
theorem names_of_addedFor
    {names : Location}
    (added : collector.AddedFor base modules (base ++ encode module :: names)) :
    module ∈ modules ∧ (names = [encode "lang".toList] ∨
      names = [encode "lang".toList, encode "_manifest_exclude".toList] ∨
      names = [encode "lang".toList,
        encode (collector.settings.locale ++ '.' :: collector.settings.format.extension)]) := by
  obtain ⟨owner, member, place⟩ := added
  simp only [Table.places, List.mem_cons, List.not_mem_nil, or_false, List.append_assoc,
    List.append_cancel_left_eq, List.cons_append, List.nil_append, List.cons.injEq,
    Text.encode_inj] at place
  rcases place with ⟨rfl, same⟩ | ⟨rfl, same⟩ | ⟨rfl, same⟩
  · exact ⟨member, .inl same⟩
  · exact ⟨member, .inr (.inl same)⟩
  · exact ⟨member, .inr (.inr same)⟩

theorem textExtension?_lang (folder : Path) :
    (folder.join "lang".toList).textExtension? = none := by
  rw [Path.textExtension?, Path.extension?, Path.fileName?_join _ Table.isPlainName_lang]
  rfl

theorem textExtension?_marker (folder : Path) :
    (folder.join "_manifest_exclude".toList).textExtension? = none := by
  rw [Path.textExtension?, Path.extension?, Path.fileName?_join _ Table.isPlainName_marker]
  rfl

section Grown

variable
  (grows : collector.GrowsBy modules first second)
  (found : first.find collector.settings.base =
    .ok (first.target collector.settings.base, .folder))
  (plain : Path.IsPlainName module)

include grows found plain

/-- Without its own table a module as a whole is as it was. -/
theorem sameSelected_of_not_mem
    (others : module ∉ modules)
    (extension : Text) :
    collector.SameSelected first second (collector.moduleFolder module) extension
      (collector.moduleFolder module) := by
  have alike := alikeOutsideTables_of_growsBy grows found
  refine .of_same (alike.along_module plain) fun names => ?_
  rw [moduleFolder, Disk.target_join first _ plain, List.append_assoc, List.singleton_append]
  refine grows.node?_eq (fun added => ?_) fun changed => ?_
  · exact others (names_of_addedFor added).1
  · exact others (names_of_addedFor (addedFor_of_changedFor changed)).1

/-- But for the tables the files with a suffix in a module are as they were. -/
theorem alikeBelow_of_ne_tablePath
    (unsaved : collector.settings.save = none)
    (extension : Text) :
    collector.AlikeBelow first second (collector.moduleFolder module) extension
      (fun path => path ≠ collector.tablePath module) (collector.moduleFolder module) := by
  have alike := alikeOutsideTables_of_growsBy grows found
  refine ⟨alike.along_module plain, fun _ => alike.kept _, fun names selected other => ?_⟩
  have suffix : (names.foldl Path.join (collector.moduleFolder module)).textExtension? =
      some extension := by
    rw [isSelected, Bool.and_eq_true, decide_eq_true_eq] at selected
    exact selected.1
  rw [tablePath_eq unsaved, decide_eq_true_eq] at other
  have elsewhere : ¬collector.AddedFor (first.target collector.settings.base) modules
      (first.target collector.settings.base ++ encode module :: names) := by
    intro added
    rcases (names_of_addedFor added).2 with rfl | rfl | rfl
    · rw [List.foldl_cons, List.foldl_nil, textExtension?_lang] at suffix
      cases suffix
    · rw [List.foldl_cons, List.foldl_cons, List.foldl_nil, textExtension?_marker] at suffix
      cases suffix
    · exact other rfl
  rw [moduleFolder, Disk.target_join first _ plain, List.append_assoc, List.singleton_append]
  exact grows.node?_eq elsewhere fun changed => elsewhere (addedFor_of_changedFor changed)

end Grown

/-! ## Surveys before and after -/

/-- Only the module of the framework may have its table among the files that are read for code. -/
theorem tableIsQuiet_of_ne_framework
    (ordinary : collector.settings.AreOrdinary)
    (unsaved : collector.settings.save = none)
    (noSlash : '/' ∉ collector.settings.locale)
    (plain : Path.IsPlainName module)
    (other : module ≠ collector.settings.framework)
    (disk : Disk) :
    collector.TableIsQuiet disk module := by
  intro member
  exfalso
  obtain ⟨root, names, rooted, below, same⟩ := exists_of_mem_codeFiles member
  have names_plain := Disk.isPlainName_of_mem_filesBelow below
  have tables := congrArg disk.target same
  -- What is read lies in the folder of code, and that is not the folder of tables.
  rcases of_codeRoot? rooted with rfl | ⟨framework, -⟩
  · rw [Disk.target_foldl_join disk _ names_plain, moduleFolder,
      Disk.target_join_join disk _ plain ordinary.codeFolder.toIsPlainName, tablePath,
      saveFolder_eq_base unsaved, Table.target_pathOf disk _ _ plain noSlash] at tables
    simp only [List.append_assoc, List.cons_append, List.nil_append, List.append_cancel_left_eq,
      List.cons.injEq, true_and] at tables
    exact ordinary.codeFolder.other tables.1.symm
  · exact other framework

theorem isSilent_of_tableIsQuiet
    {disk : Disk}
    (quiet : collector.TableIsQuiet disk module)
    {path : Path}
    (member : path ∈ collector.codeFiles disk module)
    (isTable : decide (path ≠ collector.tablePath module) = false) :
    Survey.IsSilent disk collector.access (fun _ text => collector.harvestCode text) path := by
  have same : path = collector.tablePath module := by simpa using isTable
  rw [same] at member ⊢
  obtain ⟨text, read, noCalls⟩ := quiet member
  refine ⟨text, read, ?_⟩
  simp only [harvestCode, Harvest.ofText, noCalls]
  rfl

/-! ## Turns before and after -/

theorem agrees_reportOn
    {survey other : Survey}
    (agrees : survey.Agrees other)
    (output : Option Path) :
    (reportOn survey output).Agrees (reportOn other output) :=
  ⟨agrees.module, congrArg Dictionary.size agrees.entities, agrees.overwritten, agrees.warnings,
    rfl⟩

/-- A turn that has left no error leaves the disk as it is when its survey is made again. -/
theorem collectModule_again
    (noSlash : '/' ∉ collector.settings.locale)
    {before after other : Progress}
    (ended : collector.Ends module before after)
    (noErrors : after.report.errors = before.report.errors)
    (agrees : (collector.survey before.disk module).Agrees (collector.survey other.disk module))
    {added changed : Location → Prop}
    (grows : Disk.Grows added changed after.disk other.disk)
    (elsewhere : ¬changed (before.disk.target (collector.tablePath module))) :
    (collector.collectModule other module).disk = other.disk ∧
      (collector.collectModule other module).report.errors = other.report.errors ∧
      ∃ entry entryOther,
        after.report.modules = before.report.modules ++ [entry] ∧
        (collector.collectModule other module).report.modules =
          other.report.modules ++ [entryOther] ∧
        entry.Agrees entryOther := by
  have again := collectModule_ends collector other module
  cases ended with
  | idle nothing same report =>
      rw [← agrees.entities] at nothing
      cases again with
      | idle _ sameAgain reportAgain =>
          refine ⟨sameAgain, by rw [reportAgain], _, _, by rw [report], by rw [reportAgain], ?_⟩
          exact agrees_reportOn agrees none
      | written something => simp [nothing] at something
      | failed something => simp [nothing] at something
  | written something table done report =>
      have repeated : collector.attempt other.disk module = (other.disk, .ok table) := by
        have found := Table.find_of_write done
        have present := (Disk.find_eq_ok found).2
        rw [attempt, agrees.entities]
        refine Table.write_self noSlash done grows ?_
        rw [← present]
        refine grows.unchanged _ elsewhere ?_
        rw [show after.disk.node? _ = _ from present]
        rfl
      rw [← agrees.entities] at something
      cases again with
      | idle nothing => simp [nothing] at something
      | written _ _ doneAgain reportAgain =>
          rw [repeated, Prod.mk.injEq] at doneAgain
          refine ⟨doneAgain.1.symm, by rw [reportAgain], _, _, by rw [report],
            by rw [reportAgain], ?_⟩
          exact agrees_reportOn agrees _
      | failed _ _ failedAgain => simp [repeated] at failedAgain
  | failed something cause done report => simp [report] at noErrors

/-! ## Runs before and after -/

/-- Before its turn the survey of a module is what it was at the start. -/
theorem survey_of_growsBy_others
    (modular : collector.resolver = Include.find? collector.settings)
    (names : collector.settings.HaveOrdinaryNames)
    (found : first.find collector.settings.base =
      .ok (first.target collector.settings.base, .folder))
    {done : List Text}
    (grown : collector.GrowsBy done first second)
    (plain : Path.IsPlainName module)
    (fresh : module ∉ done) :
    collector.survey second module = collector.survey first module :=
  survey_congr (sameSources_of_outside (alikeOutsideTables_of_growsBy grown found) names modular
    plain fun _ => sameSelected_of_not_mem grown found plain fresh _)

section Runs

variable
  (modular : collector.resolver = Include.find? collector.settings)
  (ordinary : collector.settings.AreOrdinary)
  (unsaved : collector.settings.save = none)
  (noSlash : '/' ∉ collector.settings.locale)
  {start last : Disk}
  (found : start.find collector.settings.base =
    .ok (start.target collector.settings.base, .folder))

include modular ordinary found unsaved noSlash

/-- In the end the survey of a module agrees with that at the start, if its table is quiet. -/
theorem survey_agrees_of_growsBy
    (grown : collector.GrowsBy modules start last)
    (quiet : collector.TableIsQuiet start collector.settings.framework)
    (quietLast : collector.TableIsQuiet last collector.settings.framework)
    (plain : Path.IsPlainName module) :
    (collector.survey start module).Agrees (collector.survey last module) := by
  refine survey_agrees (alikeOutsideTables_of_growsBy grown found) ordinary.names modular plain
    (fun _ => alikeBelow_of_ne_tablePath grown found plain unsaved _) ?_
  intro disk which path member isTable
  refine isSilent_of_tableIsQuiet ?_ member isTable
  by_cases own : module = collector.settings.framework
  · rw [own]
    rcases which with rfl | rfl
    · exact quiet
    · exact quietLast
  · exact tableIsQuiet_of_ne_framework ordinary unsaved noSlash plain own disk

/--
When modules have had their turns without an error, their turns on the disk in the end leave it as
it is and have the same results.
-/
theorem foldl_collectModule_again
    (quiet : collector.TableIsQuiet start collector.settings.framework)
    (quietLast : collector.TableIsQuiet last collector.settings.framework)
    (plain : ∀ module ∈ modules, Path.IsPlainName module)
    (nodup : modules.Nodup)
    (folders : ∀ module ∈ modules, ∃ location,
      start.find (collector.moduleFolder module) = .ok (location, .folder))
    {done : List Text}
    (fresh : ∀ module ∈ modules, module ∉ done)
    {first second : Progress}
    (grown : collector.GrowsBy done start first.disk)
    (ends : (modules.foldl collector.collectModule first).disk = last)
    (noErrors : (modules.foldl collector.collectModule first).report.errors = first.report.errors)
    (repeated : second.disk = last) :
    let again := modules.foldl collector.collectModule second
    again.disk = last ∧ again.report.errors = second.report.errors ∧
      ∃ entries others,
        (modules.foldl collector.collectModule first).report.modules =
          first.report.modules ++ entries ∧
        again.report.modules = second.report.modules ++ others ∧
        List.Forall₂ ModuleReport.Agrees entries others := by
  -- The modules that had their turns are kept along the induction: what is surveyed at a turn is
  -- compared with the start, from which the disk has grown by the tables of these modules.
  induction modules generalizing done first second with
  | nil => exact ⟨repeated, rfl, [], [], by simp, by simp, .nil⟩
  | cons module modules ih =>
      obtain ⟨plainHere, plain⟩ := List.forall_mem_cons.mp plain
      obtain ⟨unique, nodup⟩ := List.nodup_cons.mp nodup
      obtain ⟨freshHere, fresh⟩ := List.forall_mem_cons.mp fresh
      obtain ⟨⟨location, here⟩, folders⟩ := List.forall_mem_cons.mp folders
      have turn := growsBy_collectModule unsaved noSlash plainHere (grown.find_folder here)
      have upTo : collector.GrowsBy (done ++ [module]) start
          (collector.collectModule first module).disk :=
        (grown.mono (by simp)).trans (turn.mono (by simp))
      have rest : collector.GrowsBy modules (collector.collectModule first module).disk last := by
        rw [← ends]
        refine growsBy_foldl unsaved noSlash plain fun other member => ?_
        obtain ⟨place, there⟩ := folders other member
        exact ⟨place, upTo.find_folder there⟩
      have whole : collector.GrowsBy (done ++ [module] ++ modules) start last :=
        (upTo.mono (by simp)).trans (rest.mono (by simp))
      obtain ⟨_, errors, -, failed, -⟩ := tellsTruth_collectModule collector first module
      obtain ⟨_, others, -, failedLater, -⟩ :=
        tellsTruth_foldl noSlash plain nodup (collector.collectModule first module)
      rw [List.foldl_cons, failedLater, failed] at noErrors
      simp only [List.append_assoc, List.append_right_eq_self, List.append_eq_nil_iff] at noErrors
      obtain ⟨rfl, rfl⟩ := noErrors
      have agrees : (collector.survey first.disk module).Agrees (collector.survey last module) := by
        rw [survey_of_growsBy_others modular ordinary.names found grown plainHere freshHere]
        exact survey_agrees_of_growsBy modular ordinary unsaved noSlash found whole quiet quietLast
          plainHere
      -- The table of this module is not that of a later one, so it is still there in the end.
      have elsewhere : ¬collector.ChangedFor
          ((collector.collectModule first module).disk.target collector.settings.base) modules
          (first.disk.target (collector.tablePath module)) := by
        intro changed
        rw [tablePath, saveFolder_eq_base unsaved, Table.target_pathOf _ _ _ plainHere noSlash,
          turn.target] at changed
        exact unique (names_of_addedFor (addedFor_of_changedFor changed)).1
      have freshLater : ∀ other ∈ modules, other ∉ done ++ [module] := by
        intro other member
        rw [List.mem_append, not_or, List.mem_singleton]
        exact ⟨fresh other member, fun same => unique (same ▸ member)⟩
      obtain ⟨stays, noneHere, entry, entryAgain, one, oneAgain, alike⟩ :=
        collectModule_again noSlash (collectModule_ends collector first module)
          (by rw [failed, List.append_nil]) (repeated ▸ agrees) (repeated ▸ rest) elsewhere
      obtain ⟨staysLater, noneLater, entries, entriesAgain, more, moreAgain, alikeLater⟩ :=
        ih plain nodup folders freshLater upTo ends (by rw [failedLater, List.append_nil])
          (stays.trans repeated)
      refine ⟨staysLater, noneLater.trans noneHere, entry :: entries, entryAgain :: entriesAgain,
        ?_, ?_, .cons alike alikeLater⟩
      · rw [List.foldl_cons, more, one, List.append_assoc, List.singleton_append]
      · rw [List.foldl_cons, moreAgain, oneAgain, List.append_assoc, List.singleton_append]

end Runs

/--
A collection of all modules that leaves no error can be repeated: the second one has the same
modules, entities and warnings as the first, and leaves the disk as it is.  The names of files and
folders have to be ordinary, the tables have to lie in the modules, and the table of the framework
has to be quiet before the first collection and after it.
-/
theorem run_again
    {disk : Disk}
    {report : Report}
    (modular : collector.resolver = Include.find? collector.settings)
    (valid : collector.settings.validate = .ok ())
    (ordinary : collector.settings.AreOrdinary)
    (unsaved : collector.settings.save = none)
    (ran : (collector.run disk none).result = .ok report)
    (noErrors : report.errors = [])
    (quiet : collector.TableIsQuiet disk collector.settings.framework)
    (quietLast : collector.TableIsQuiet (collector.run disk none).disk
      collector.settings.framework) :
    let last := (collector.run disk none).disk
    (collector.run last none).disk = last ∧
      ∃ again, (collector.run last none).result = .ok again ∧ again.errors = [] ∧
        List.Forall₂ ModuleReport.Agrees report.modules again.modules ∧
        again.warningCount = report.warningCount := by
  intro last
  have noSlash := noSlash_of_validate valid
  cases listed : collector.modules disk none with
  | error unlisted => simp [run, listed] at ran
  | ok modules =>
      obtain ⟨names, candidates, -⟩ := map_eq_ok_iff.mp listed
      obtain ⟨location, found, -⟩ := candidates_none_eq_ok candidates
      have reached : location = disk.target collector.settings.base := (Disk.find_eq_ok found).1
      subst reached
      have plain : ∀ module ∈ modules, Path.IsPlainName module := fun _ member =>
        (of_mem_modules listed member).1
      have folders : ∀ module ∈ modules, ∃ location,
          disk.find (collector.moduleFolder module) = .ok (location, .folder) := fun _ member =>
        exists_find_of_mem_modules listed member
      obtain ⟨start, startDisk, empty, lastDisk, result⟩ := exists_start_of_modules listed
      have counted := isCounted_run ran
      rw [result, Except.ok.injEq] at ran
      have grows : collector.GrowsBy modules disk last := by
        have grown := growsBy_foldl unsaved noSlash plain (startDisk ▸ folders)
        rwa [startDisk, ← lastDisk] at grown
      have begun : collector.GrowsBy [] disk start.disk := by rw [startDisk]
      have listedAgain : collector.modules last none = .ok modules := by
        rw [modules_congr ordinary (alikeOutsideTables_of_growsBy grows found), listed]
      obtain ⟨second, secondDisk, emptyAgain, lastAgain, resultAgain⟩ :=
        exists_start_of_modules listedAgain
      obtain ⟨stays, none, entries, others, all, allAgain, agrees⟩ :=
        foldl_collectModule_again modular ordinary unsaved noSlash found quiet quietLast plain
          (nodup_modules listed) folders (fun _ _ => List.not_mem_nil) begun lastDisk.symm
          (by rw [ran, noErrors, empty]) secondDisk
      rw [ran, empty, List.nil_append] at all
      rw [emptyAgain, List.nil_append] at allAgain
      rw [← all, ← allAgain] at agrees
      refine ⟨lastAgain.trans stays, _, resultAgain, by rw [none, emptyAgain], agrees, ?_⟩
      rw [isCounted_run resultAgain, counted, ModuleReport.map_warnings_of_agrees agrees]

/-- The table of a framework that is read as a whole is read again, and it holds no call sites. -/
theorem run_again_framework :
    let disk : Disk :=
      ((Disk.blank.graft [] "sapphire".toList .folder).graft
        [encode "sapphire".toList] "_config.php".toList (.file [])).graft
          [encode "sapphire".toList] "Page.php".toList (.file (encode "_t('A.B', 'Save')".toList))
    let collector : Collector := { settings := {}, ignored := [] }
    let last := (collector.run disk none).disk
    collector.tablePath "sapphire".toList ∈ collector.codeFiles last "sapphire".toList ∧
      ∃ report, (collector.run disk none).result = .ok report ∧
        (collector.run last none).disk = last ∧
        ∃ again, (collector.run last none).result = .ok again ∧ again.errors = [] ∧
          List.Forall₂ ModuleReport.Agrees report.modules again.modules ∧
          again.warningCount = report.warningCount := by
  intro disk collector last
  have ran : (collector.run disk none).result = .ok
      { modules := [⟨"sapphire".toList, 1, 0, 0, 2,
          some ⟨"./sapphire/lang/en_US.php".toList⟩⟩] } := by
    decide +kernel
  have quiet : collector.TableIsQuiet disk collector.settings.framework := fun member =>
    absurd member (by decide +kernel)
  have quietLast : collector.TableIsQuiet last collector.settings.framework := fun _ =>
    ⟨"<?php\n\nglobal $lang;\n\n$lang['en_US']['A']['B'] = 'Save';\n\n?>".toList,
      by decide +kernel, by decide +kernel⟩
  exact ⟨by decide +kernel, _, ran,
    run_again rfl (by decide +kernel) Settings.areOrdinary_default rfl ran rfl quiet quietLast⟩

/--
The table of a framework that is read as a whole can be a source of entities: a value that looks
like a call site is one in the table, and a second collection counts one entity more.
-/
theorem run_again_framework_ne :
    let code := "_t('A.B', '_t(\"C.D\", \"x\")')".toList
    let disk : Disk :=
      ((Disk.blank.graft [] "sapphire".toList .folder).graft
        [encode "sapphire".toList] "_config.php".toList (.file [])).graft
          [encode "sapphire".toList] "Page.php".toList (.file (encode code))
    let collector : Collector := { settings := {}, ignored := [] }
    let first := collector.run disk none
    let second := collector.run first.disk none
    let counts (report : Report) := (report.errors, report.modules.map ModuleReport.entities)
    collector.settings.validate = .ok () ∧
      first.result.map counts = .ok ([], [1]) ∧ second.result.map counts = .ok ([], [2]) := by
  decide +kernel

end Collector
end Phrasebook
