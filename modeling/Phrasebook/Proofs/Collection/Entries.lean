import Phrasebook.Proofs.Collection.Report
import Phrasebook.Proofs.Survey.Keys
import Phrasebook.Proofs.Table.Entries

/-!
# Entries and their number

The report on a module counts the entities that were gathered for it.  The table has fewer entries
when some of them have keys that cannot be split: these are left out, and the log names them, but no
count of the report does.  Only what is declared can have such keys.
-/

namespace Phrasebook
namespace Collector

open Outcome

/-- Every key that is declared for a module can be split. -/
def DeclaresSplit (collector : Collector) (module : Text) : Prop :=
  ∀ map ∈ collector.declared.mapsOf module, ∀ full record, map.get? full = some record →
    (Entity.Key.parse? full).isSome

/-- What was written at the turn of a module, next to what the report says of it. -/
structure Delivers
    (collector : Collector)
    (turn : Turn)
    (entry : ModuleReport)
    (written : Table.Written) : Prop where
  /-- The table was written at the turn. -/
  attempt : collector.attempt turn.before turn.module = (turn.after, .ok written)
  /-- The table is found at its path, with as many entries as are told, under different keys. -/
  table : ∃ text keys,
    turn.after.find written.path = .ok (turn.before.target written.path, .file (Text.encode text)) ∧
      Table.HasEntries collector.settings.format collector.settings.locale text keys ∧
      keys.Nodup ∧ keys.length = written.entries ∧
      ∀ key, key ∈ keys ↔ Entity.Key.parse? key.text = some key ∧
        ∃ record, (collector.surveyAt turn).entities.get? key.text = some record
  /-- What was left out is counted as well. -/
  entities : entry.entities = written.entries + written.skipped.length
  /-- What was left out was declared for the module under a key that cannot be split. -/
  declared : ∀ cause ∈ written.skipped, ∃ full record, cause = .missingNamespace full ∧
    Entity.Key.parse? full = none ∧
    ∃ map ∈ collector.declared.mapsOf turn.module, map.get? full = some record
  /-- There is a warning for each file that cannot be read and for each omission, and no other. -/
  warnings : entry.warnings =
    (collector.codeFiles turn.before turn.module ++
        collector.templateFiles turn.before turn.module).countP
      (fun path => !turn.before.canRead collector.access path) +
    (Finding.warnings (collector.findings turn.before turn.module)).length

variable
  {collector : Collector}
  {disk : Disk}
  {turn : Turn}
  {entry : ModuleReport}
  {written : Table.Written}

/-- Where all declared keys can be split, the report counts what the table has. -/
theorem Delivers.complete
    (delivers : collector.Delivers turn entry written)
    (split : collector.DeclaresSplit turn.module) :
    written.skipped = [] ∧ entry.entities = written.entries := by
  have nothing : written.skipped = [] := by
    refine List.eq_nil_iff_forall_not_mem.mpr fun cause member => ?_
    obtain ⟨full, record, -, noSplit, map, declared, present⟩ := delivers.declared cause member
    have known := split map declared full record present
    rw [noSplit] at known
    cases known
  have counted := delivers.entities
  rw [nothing, List.length_nil, Nat.add_zero] at counted
  exact ⟨nothing, counted⟩

/-- A table that was written delivers what was gathered, as far as its keys can be split. -/
theorem delivers_of_attempt
    {module : Text}
    {after : Disk}
    (output : Option Path)
    (done : collector.attempt disk module = (after, .ok written)) :
    collector.Delivers ⟨module, disk, after⟩ (reportOn (collector.survey disk module) output)
      written := by
  have same := (Table.write_eq_ok_iff.mp done).1
  have found := Table.find_of_write done
  have counted := Table.entries_writtenAt written.path (collector.survey disk module).entities
  have total := Table.length_listed_add_length_skipped (collector.survey disk module).entities
  subst same
  refine ⟨done, ⟨_, _, found, Table.hasEntries_render _ _ _, Table.nodup_keys_listed _, ?_,
    fun _ => Table.mem_keys_listed⟩, ?_, ?_,
    (survey_keeps_last_definitions collector disk module).2.2⟩
  · rw [List.length_map]
    exact counted.symm
  · exact total.symm.trans (congrArg (· + _) counted.symm)
  · intro cause member
    obtain ⟨full, leftOut, rfl⟩ := List.mem_map.mp member
    obtain ⟨noSplit, record, present⟩ := Table.mem_unlisted.mp leftOut
    exact ⟨full, record, rfl, noSplit, declared_of_survey present noSplit⟩

/--
What an entry of a report accounts for: the table that it names, if it names one, was written and
delivers what was gathered, and nothing is left out where every declared key can be split.
-/
def Accounts (collector : Collector) (turn : Turn) (entry : ModuleReport) : Prop :=
  ∀ path, entry.output = some path →
    ∃ written, written.path = path ∧ collector.Delivers turn entry written ∧
      (collector.DeclaresSplit turn.module →
        written.skipped = [] ∧ entry.entities = written.entries)

/-- A turn adds an entry to the report that accounts for its table. -/
theorem accounts_collectModule
    (collector : Collector)
    (progress : Progress)
    (module : Text) :
    let after := collector.collectModule progress module
    ∃ entry, after.report.modules = progress.report.modules ++ [entry] ∧
      collector.Accounts ⟨module, progress.disk, after.disk⟩ entry := by
  intro after
  cases collectModule_ends collector progress module with
  | idle nothing same report =>
      exact ⟨_, congrArg Report.modules report, fun path named => by cases named⟩
  | failed something cause done report =>
      exact ⟨_, congrArg Report.modules report, fun path named => by cases named⟩
  | written something table done report =>
      refine ⟨_, congrArg Report.modules report, fun path named => ?_⟩
      have place := congrArg Table.Written.path (Table.write_eq_ok_iff.mp done).1
      have delivers := delivers_of_attempt (some (collector.tablePath module)) done
      exact ⟨table, place.trans (Option.some.inj named), delivers, delivers.complete⟩

/-- What relates each turn to the entry that it adds relates all turns to all entries. -/
theorem exists_entries_foldl
    {relates : Turn → ModuleReport → Prop}
    (step : ∀ (progress : Progress) (module : Text),
      let after := collector.collectModule progress module
      ∃ entry, after.report.modules = progress.report.modules ++ [entry] ∧
        relates ⟨module, progress.disk, after.disk⟩ entry)
    (modules : List Text)
    (progress : Progress) :
    ∃ entries,
      (modules.foldl collector.collectModule progress).report.modules =
          progress.report.modules ++ entries ∧
        List.Forall₂ relates (collector.turns progress.disk modules) entries := by
  induction modules generalizing progress with
  | nil => exact ⟨[], by simp, .nil⟩
  | cons module modules ih =>
      obtain ⟨entry, first, related⟩ := step progress module
      obtain ⟨entries, rest, others⟩ := ih (collector.collectModule progress module)
      refine ⟨entry :: entries, by simp [rest, first], ?_⟩
      simp only [turns, disk_collectModule]
      exact .cons related others

/--
Whatever a collection reports of a table, the table was written and has an entry for each entity of
its module whose key can be split.  The report counts those that were left out as well, but not as
warnings; where every declared key can be split nothing is left out, and the counts are the same.
-/
theorem run_accounts
    {report : Report}
    {filter : Option Text}
    (ran : (collector.run disk filter).result = .ok report) :
    ∃ modules, collector.modules disk filter = .ok modules ∧
      List.Forall₂ collector.Accounts (collector.turns disk modules) report.modules ∧
      report.totalEntities = (report.modules.map ModuleReport.entities).sum ∧
      report.warningCount = (report.modules.map ModuleReport.warnings).sum := by
  cases listed : collector.modules disk filter with
  | error unlisted => simp [run, listed] at ran
  | ok modules =>
      obtain ⟨start, rfl, empty, -, result⟩ := exists_start_of_modules listed
      obtain ⟨entries, whole, accounted⟩ :=
        exists_entries_foldl (accounts_collectModule collector) modules start
      have counted := isCounted_run ran
      rw [result, Except.ok.injEq] at ran
      rw [ran, empty, List.nil_append] at whole
      rw [← whole] at accounted
      exact ⟨modules, rfl, accounted, totalEntities_eq_sum report, counted⟩

/-- Two modules, of which one declares a key without a namespace. -/
theorem run_accounts_two :
    let withModule (disk : Disk) (name : Text) : Disk :=
      (disk.graft [] name .folder).graft [Text.encode name] "_config.php".toList (.file [])
    let disk := withModule (withModule .blank "blog".toList) "cms".toList
    let save : Entity.Map := Dictionary.ofList [("A.B".toList, { value := "Save".toList })]
    let collector : Collector :=
      { settings := {}, ignored := []
        declared := ⟨[("blog".toList, save),
          ("cms".toList, save.insert "OPEN".toList { value := "Open".toList })]⟩ }
    let report : Report :=
      { modules := [⟨"blog".toList, 1, 0, 0, 0, some ⟨"./blog/lang/en_US.php".toList⟩⟩,
          ⟨"cms".toList, 2, 0, 0, 0, some ⟨"./cms/lang/en_US.php".toList⟩⟩] }
    (collector.run disk none).result = .ok report ∧
      ∃ modules, collector.modules disk none = .ok modules ∧
        List.Forall₂ collector.Accounts (collector.turns disk modules) report.modules := by
  intro withModule disk save collector report
  have ran : (collector.run disk none).result = .ok report := by decide +kernel
  obtain ⟨modules, listed, accounted, -⟩ := run_accounts ran
  exact ⟨ran, modules, listed, accounted⟩

/-- A declared key without a namespace is counted as an entity, but it is not in the table. -/
theorem run_accounts_ne :
    let disk :=
      (Disk.blank.graft [] "cms".toList .folder).graft
        [Text.encode "cms".toList] "_config.php".toList (.file [])
    let entities : Entity.Map := Dictionary.ofList [("OPEN".toList, { value := "Open".toList })]
    let collector : Collector :=
      { settings := {}, ignored := [], declared := ⟨[("cms".toList, entities)]⟩ }
    let path : Path := ⟨"./cms/lang/en_US.php".toList⟩
    let report : Report := { modules := [⟨"cms".toList, 1, 0, 0, 0, some path⟩] }
    (collector.run disk none).result = .ok report ∧
      (collector.attempt disk "cms".toList).2 =
        .ok ⟨path, 0, [.missingNamespace "OPEN".toList]⟩ ∧
      report.totalEntities = 1 ∧ report.warningCount = 0 := by
  decide +kernel

end Collector
end Phrasebook
