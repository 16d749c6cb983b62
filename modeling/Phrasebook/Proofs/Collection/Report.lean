import Mathlib.Algebra.GroupWithZero.Nat
import Phrasebook.Proofs.Collection.Modules
import Phrasebook.Proofs.Survey.Findings

/-!
# Reports on collections

A collection gives every module a turn, on the disk that the turns before have left.  At its turn a
module has its table written, or it has nothing to be written, or an error names it.  What the
report says of a turn stays true to the end, because the turns of other modules write other files.
-/

namespace Phrasebook

open Outcome
open Text (encode)

/-- The errors about one module. -/
def Unwritten.about (errors : List Unwritten) (module : Text) : List Unwritten :=
  errors.filter fun unwritten => unwritten.module = module

/-- The warnings that a report has counted are those of its modules. -/
def Report.IsCounted (report : Report) : Prop :=
  report.warningCount = (report.modules.map ModuleReport.warnings).sum

/-- The turn of a module in a collection. -/
structure Turn where
  /-- The module. -/
  module : Text
  /-- The disk that the module finds. -/
  before : Disk
  /-- The disk that the module leaves. -/
  after : Disk

namespace Collector

/-- The turns of modules, one after the other. -/
def turns (collector : Collector) (disk : Disk) : List Text → List Turn
  | [] => []
  | module :: rest =>
      let after := (collector.collectModule { disk } module).disk
      ⟨module, disk, after⟩ :: collector.turns after rest

/-- What is collected for a module at its turn. -/
def surveyAt (collector : Collector) (turn : Turn) : Survey :=
  collector.survey turn.before turn.module

/-- The table of what is collected for a module at its turn. -/
def tableAt (collector : Collector) (turn : Turn) : Text :=
  Table.render collector.settings.format collector.settings.locale
    (collector.surveyAt turn).entities

/--
A report tells the truth about a turn.  It counts what was collected.  If that is nothing, it names
no table and no error, and nothing was written.  Otherwise it names either the path of the table,
which is on the disk in the end, or one error.
-/
def TellsTruth
    (collector : Collector)
    (errors : List Unwritten)
    (last : Disk)
    (turn : Turn)
    (entry : ModuleReport) :
    Prop :=
  let survey := collector.surveyAt turn
  let path := collector.tablePath turn.module
  entry = reportOn survey entry.output ∧
    match survey.entities.isEmpty, entry.output with
    | true, none => turn.after = turn.before ∧ Unwritten.about errors turn.module = []
    | true, some _ => False
    | false, some output =>
        output = path ∧ Unwritten.about errors turn.module = [] ∧
          last.find path = .ok (last.target path, .file (Text.encode (collector.tableAt turn)))
    | false, none => ∃ cause, Unwritten.about errors turn.module = [⟨turn.module, path, cause⟩]

/-! ## One turn -/

variable
  {collector : Collector}
  {errors others : List Unwritten}
  {disk last : Disk}
  {turn : Turn}
  {entry : ModuleReport}

/-- The attempt to write the table of what is collected for a module. -/
def attempt (collector : Collector) (disk : Disk) (module : Text) :
    Disk × Except Table.WriteError Table.Written :=
  Table.write disk collector.access collector.settings.saveFolder module collector.settings.locale
    collector.settings.format (collector.survey disk module).entities

/-- The ways in which the turn of a module ends. -/
inductive Ends (collector : Collector) (module : Text) (before after : Progress) : Prop where
  /-- Nothing was collected. -/
  | idle
      (nothing : (collector.survey before.disk module).entities.isEmpty = true)
      (disk : after.disk = before.disk)
      (report : after.report =
        ⟨before.report.modules ++ [reportOn (collector.survey before.disk module) none],
          before.report.warningCount + (collector.survey before.disk module).warnings,
          before.report.errors⟩)
  /-- The table was written. -/
  | written
      (something : (collector.survey before.disk module).entities.isEmpty = false)
      (table : Table.Written)
      (disk : collector.attempt before.disk module = (after.disk, .ok table))
      (report : after.report =
        ⟨before.report.modules ++
            [reportOn (collector.survey before.disk module) (some (collector.tablePath module))],
          before.report.warningCount + (collector.survey before.disk module).warnings,
          before.report.errors⟩)
  /-- The table could not be written. -/
  | failed
      (something : (collector.survey before.disk module).entities.isEmpty = false)
      (cause : Table.WriteError)
      (disk : collector.attempt before.disk module = (after.disk, .error cause))
      (report : after.report =
        ⟨before.report.modules ++ [reportOn (collector.survey before.disk module) none],
          before.report.warningCount + (collector.survey before.disk module).warnings,
          before.report.errors ++ [⟨module, collector.tablePath module, cause⟩]⟩)

theorem writeTable_eq
    {module : Text}
    {after : Disk}
    {result : Except Table.WriteError Table.Written}
    (done : collector.attempt disk module = (after, result)) :
    collector.writeTable disk module (collector.survey disk module).entities =
      (after, result.mapError fun cause => ⟨module, collector.tablePath module, cause⟩) := by
  rw [attempt] at done
  rw [writeTable, done]

theorem collectModule_ends
    (collector : Collector)
    (progress : Progress)
    (module : Text) :
    collector.Ends module progress (collector.collectModule progress module) := by
  unfold collectModule
  cases nothing : (collector.survey progress.disk module).entities.isEmpty with
  | true =>
      simp only [nothing, if_true]
      exact .idle nothing rfl rfl
  | false =>
      cases done : collector.attempt progress.disk module with
      | mk after result =>
          simp only [nothing, Bool.false_eq_true, if_false, writeTable_eq done]
          cases result with
          | error cause => exact .failed nothing cause done rfl
          | ok table =>
              have path := (Table.write_eq_ok_iff.mp done).1
              subst path
              exact .written nothing _ done rfl

/-- A turn adds nodes, and changes no file but the table of the module. -/
theorem grows_collectModule
    (collector : Collector)
    (progress : Progress)
    (module : Text) :
    Disk.Grows (fun _ => True) (· = progress.disk.target (collector.tablePath module))
      progress.disk (collector.collectModule progress module).disk := by
  have stored := Table.grows_write progress.disk collector.access collector.settings.saveFolder
    module collector.settings.locale collector.settings.format
    (collector.survey progress.disk module).entities
  rw [← attempt] at stored
  cases collectModule_ends collector progress module with
  | idle nothing same report => rw [same]
  | written something table done report => rwa [done] at stored
  | failed something cause done report => rwa [done] at stored

/-- The disk after a turn depends on the disk before it only. -/
theorem disk_collectModule
    (collector : Collector)
    (progress : Progress)
    (module : Text) :
    (collector.collectModule { disk := progress.disk } module).disk =
      (collector.collectModule progress module).disk := by
  unfold collectModule
  simp only
  split
  · rfl
  · split <;> simp_all

/-! ## From one turn to the end -/

/-- Only the errors about its module matter to the truth about a turn. -/
theorem TellsTruth.of_about_eq
    (truth : collector.TellsTruth errors last turn entry)
    (same : Unwritten.about others turn.module = Unwritten.about errors turn.module) :
    collector.TellsTruth others last turn entry := by
  unfold TellsTruth
  rwa [same]

/-- Changes elsewhere leave the truth about a turn as it is. -/
theorem TellsTruth.later
    {added changed : Location → Prop}
    (truth : collector.TellsTruth errors disk turn entry)
    (grows : Disk.Grows added changed disk last)
    (elsewhere : ¬changed (disk.target (collector.tablePath turn.module))) :
    collector.TellsTruth errors last turn entry := by
  obtain ⟨counted, truth⟩ := truth
  refine ⟨counted, ?_⟩
  revert truth
  split
  · exact id
  · exact id
  · rintro ⟨path, named, found⟩
    have present := (Disk.find_eq_ok found).2
    refine ⟨path, named, ?_⟩
    rw [grows.target]
    refine Disk.find_of_kept grows.kept grows.here found ?_
    rw [grows.unchanged _ elsewhere (by rw [present]; rfl), present]
  · exact id

/-- What a turn adds to a report is the truth about it, and names no other module. -/
theorem tellsTruth_collectModule
    (collector : Collector)
    (progress : Progress)
    (module : Text) :
    let after := collector.collectModule progress module
    ∃ entry errors,
      after.report.modules = progress.report.modules ++ [entry] ∧
        after.report.errors = progress.report.errors ++ errors ∧
        (errors.map Unwritten.module).Sublist [module] ∧
        collector.TellsTruth errors after.disk ⟨module, progress.disk, after.disk⟩ entry := by
  intro after
  cases collectModule_ends collector progress module with
  | idle nothing same report =>
      refine ⟨_, [], by rw [report], by rw [report, List.append_nil], List.nil_sublist _, rfl, ?_⟩
      simp only [surveyAt, nothing]
      exact ⟨same, rfl⟩
  | written something table done report =>
      refine ⟨_, [], by rw [report], by rw [report, List.append_nil], List.nil_sublist _, rfl, ?_⟩
      have grows := grows_collectModule collector progress module
      simp only [surveyAt, something]
      refine ⟨rfl, rfl, ?_⟩
      rw [grows.target]
      exact Table.find_of_write done
  | failed something cause done report =>
      refine ⟨_, _, by rw [report], by rw [report], List.Sublist.refl _, rfl, ?_⟩
      simp only [surveyAt, something]
      exact ⟨cause, by simp [Unwritten.about]⟩

theorem about_append (front behind : List Unwritten) (module : Text) :
    Unwritten.about (front ++ behind) module =
      Unwritten.about front module ++ Unwritten.about behind module :=
  List.filter_append ..

/-- Errors that name only some modules say nothing about another one. -/
theorem about_eq_nil
    {module : Text}
    {modules : List Text}
    (named : (errors.map Unwritten.module).Sublist modules)
    (other : module ∉ modules) :
    Unwritten.about errors module = [] := by
  refine List.filter_eq_nil_iff.mpr fun unwritten member same => other ?_
  rw [← of_decide_eq_true same]
  exact named.subset (List.mem_map_of_mem member)

/-- After the turns of all modules the report tells the truth about each of them. -/
theorem tellsTruth_foldl
    (noSlash : '/' ∉ collector.settings.locale)
    {modules : List Text}
    (plain : ∀ module ∈ modules, Path.IsPlainName module)
    (nodup : modules.Nodup)
    (progress : Progress) :
    let last := modules.foldl collector.collectModule progress
    ∃ entries errors,
      last.report.modules = progress.report.modules ++ entries ∧
        last.report.errors = progress.report.errors ++ errors ∧
        (errors.map Unwritten.module).Sublist modules ∧
        List.Forall₂ (fun turn entry =>
            turn.module ∈ modules ∧ collector.TellsTruth errors last.disk turn entry)
          (collector.turns progress.disk modules) entries ∧
        Disk.Grows (fun _ => True)
          (fun location => ∃ module ∈ modules,
            location = progress.disk.target (collector.tablePath module))
          progress.disk last.disk := by
  induction modules generalizing progress with
  | nil => exact ⟨[], [], by simp, by simp, List.Sublist.refl _, .nil, .refl _⟩
  | cons module modules ih =>
      obtain ⟨fresh, nodup⟩ := List.nodup_cons.mp nodup
      obtain ⟨plainHere, plain⟩ := List.forall_mem_cons.mp plain
      obtain ⟨entry, errors, added, failed, named, truth⟩ :=
        tellsTruth_collectModule collector progress module
      have turn := grows_collectModule collector progress module
      obtain ⟨entries, others, addedLater, failedLater, namedLater, truths, grows⟩ :=
        ih plain nodup (collector.collectModule progress module)
      -- The turns that follow write the tables of other modules, and these are other files.
      have elsewhere : ∀ other ∈ modules,
          progress.disk.target (collector.tablePath module) ≠
            progress.disk.target (collector.tablePath other) := by
        rintro other member same
        exact fresh (target_tablePath_inj noSlash plainHere (plain other member) same ▸ member)
      refine ⟨entry :: entries, errors ++ others, ?_, ?_, ?_, ?_, ?_⟩
      · rw [List.foldl_cons, addedLater, added, List.append_assoc, List.singleton_append]
      · rw [List.foldl_cons, failedLater, failed, List.append_assoc]
      · rw [List.map_append]
        exact named.append namedLater
      · simp only [turns, disk_collectModule]
        refine .cons ⟨List.mem_cons_self, (truth.later grows ?_).of_about_eq ?_⟩ (truths.imp ?_)
        · rintro ⟨other, member, same⟩
          rw [turn.target, turn.target] at same
          exact elsewhere other member same
        · rw [about_append, about_eq_nil namedLater fresh, List.append_nil]
        · rintro next others ⟨member, truth⟩
          refine ⟨List.mem_cons_of_mem module member, truth.of_about_eq ?_⟩
          rw [about_append, about_eq_nil named, List.nil_append]
          rw [List.mem_singleton]
          exact fun same => fresh (same ▸ member)
      · refine (turn.mono (fun _ => id) ?_).trans (grows.mono (fun _ => id) ?_)
        · exact fun location same => ⟨module, List.mem_cons_self, same⟩
        · rintro location ⟨other, member, same⟩
          exact ⟨other, List.mem_cons_of_mem module member, by rw [same, turn.target]⟩

@[simp]
theorem map_module_turns (collector : Collector) (disk : Disk) (modules : List Text) :
    (collector.turns disk modules).map Turn.module = modules := by
  induction modules generalizing disk with
  | nil => rfl
  | cons module modules ih => rw [turns, List.map_cons, ih]

theorem map_module_of_tellsTruth
    {turns : List Turn}
    {entries : List ModuleReport}
    (truths : List.Forall₂ (collector.TellsTruth errors last) turns entries) :
    entries.map ModuleReport.module = turns.map Turn.module := by
  induction truths with
  | nil => rfl
  | cons truth truths ih =>
      rw [List.map_cons, List.map_cons, ih, truth.1]
      simp [reportOn, surveyAt]

/-! ## Totals -/

/-- A turn counts the warnings of its module. -/
theorem isCounted_collectModule
    {progress : Progress}
    (counted : progress.report.IsCounted)
    (module : Text) :
    (collector.collectModule progress module).report.IsCounted := by
  unfold Report.IsCounted at counted ⊢
  cases collectModule_ends collector progress module with
  | idle nothing same report => simp [report, counted, reportOn]
  | written something table done report => simp [report, counted, reportOn]
  | failed something cause done report => simp [report, counted, reportOn]

/-- The turns of all modules count the warnings of all. -/
theorem isCounted_foldl
    (modules : List Text)
    {progress : Progress}
    (counted : progress.report.IsCounted) :
    (modules.foldl collector.collectModule progress).report.IsCounted := by
  induction modules generalizing progress with
  | nil => exact counted
  | cons module modules ih => exact ih (isCounted_collectModule counted module)

/-- A collection counts the warnings of all modules that it reports on. -/
theorem isCounted_run
    {report : Report}
    {filter : Option Text}
    (ran : (collector.run disk filter).result = .ok report) :
    report.IsCounted := by
  cases listed : collector.modules disk filter with
  | error unlisted => simp [run, listed] at ran
  | ok modules =>
      obtain ⟨start, rfl, empty, -, result⟩ := exists_start_of_modules listed
      rw [result, Except.ok.injEq] at ran
      rw [← ran]
      refine isCounted_foldl modules ?_
      rw [empty]
      rfl

/-- The entities of a report are those of its modules. -/
theorem totalEntities_eq_sum (report : Report) :
    report.totalEntities = (report.modules.map ModuleReport.entities).sum := by
  rw [Report.totalEntities, List.sum, List.foldr_map]

/--
A collection of the modules that pass a filter reports on each of them once, in their order, and
tells the truth about its turn.  The errors come in the same order, and the totals are the sums over
the modules.
-/
theorem run_tellsTruth
    {report : Report}
    {filter : Option Text}
    (valid : collector.settings.validate = .ok ())
    (ran : (collector.run disk filter).result = .ok report) :
    ∃ modules, collector.modules disk filter = .ok modules ∧
      report.modules.map ModuleReport.module = modules ∧
      List.Forall₂ (collector.TellsTruth report.errors (collector.run disk filter).disk)
        (collector.turns disk modules) report.modules ∧
      (report.errors.map Unwritten.module).Sublist modules ∧
      report.totalEntities = (report.modules.map ModuleReport.entities).sum ∧
      report.warningCount = (report.modules.map ModuleReport.warnings).sum := by
  cases listed : collector.modules disk filter with
  | error unlisted => simp [run, listed] at ran
  | ok modules =>
      have plain : ∀ module ∈ modules, Path.IsPlainName module := fun _ member =>
        (of_mem_modules listed member).1
      obtain ⟨start, rfl, empty, lastDisk, result⟩ := exists_start_of_modules listed
      obtain ⟨entries, errors, added, failed, named, truths, -⟩ :=
        tellsTruth_foldl (noSlash_of_validate valid) plain (nodup_modules listed) start
      have counted := isCounted_run ran
      rw [result, Except.ok.injEq] at ran
      rw [ran, empty, List.nil_append] at added failed
      subst added failed
      rw [← lastDisk] at truths
      have told := truths.imp fun _ _ truth => truth.2
      refine ⟨modules, rfl, ?_, told, named, totalEntities_eq_sum report, counted⟩
      rw [map_module_of_tellsTruth told, map_module_turns]

/--
Of three modules one has a table, one must not have any, and one has no entities.  Two of them have
a call site with a key that does not name its namespace.
-/
theorem run_tellsTruth_three :
    let withModule (disk : Disk) (name code : Text) : Disk :=
      let folder : Location := [encode name]
      (((disk.graft [] name .folder).graft folder "_config.php".toList (.file [])).graft
        folder "code".toList .folder).graft
          (folder ++ [encode "code".toList]) "Page.php".toList (.file (encode code))
    let disk := withModule (withModule (withModule .blank
      "blog".toList "_t('A.B', 'Save') _t('B', 'Save')".toList)
      "cms".toList "_t('A.B', 'Open')".toList) "forum".toList "_t('B', 'Save')".toList
    let collector : Collector :=
      { settings := {}, ignored := [], access := .denying [] [.ofText "./cms".toList] }
    let folder := Path.ofText "./cms/lang".toList
    let report : Report :=
      { modules := [⟨"blog".toList, 1, 0, 1, 1, some (.ofText "./blog/lang/en_US.php".toList)⟩,
          ⟨"cms".toList, 1, 0, 0, 1, none⟩, ⟨"forum".toList, 0, 0, 1, 1, none⟩]
        warningCount := 2
        errors :=
          [⟨"cms".toList, folder.join "en_US.php".toList, .folder folder (.denied folder)⟩] }
    collector.settings.validate = .ok () ∧ (collector.run disk none).result = .ok report ∧
      report.warningCount = (report.modules.map ModuleReport.warnings).sum ∧
      ∃ modules, collector.modules disk none = .ok modules ∧
        List.Forall₂ (collector.TellsTruth report.errors (collector.run disk none).disk)
          (collector.turns disk modules) report.modules := by
  intro withModule disk collector folder report
  have valid : collector.settings.validate = .ok () := by decide +kernel
  have ran : (collector.run disk none).result = .ok report := by decide +kernel
  obtain ⟨modules, listed, -, truths, -, -, counted⟩ := run_tellsTruth valid ran
  exact ⟨valid, ran, counted, modules, listed, truths⟩

end Collector
end Phrasebook
