import Phrasebook.Proofs.Collection.Footprint
import Phrasebook.Proofs.Table.Twins

/-!
# Collections on two disks

The turn of a module adds its entry to the report, an error at most, and some lines to the log.  On
two disks where the survey of the module is the same, and that hold nodes of the same kinds where
its table is written, the turn adds the same and changes both disks alike.  Two disks on which every
turn goes so, however they have been changed alike before, give collections with the same report,
the same log and the same tables.
-/

namespace Phrasebook

open Disk (AlikeAlong AlikeResults ChangedAlike SameShapeAt)

/-- What is added to a report and to a log. -/
structure Addition where
  /-- The entries on modules. -/
  entries : List ModuleReport
  /-- How much was left out. -/
  warnings : Nat
  /-- The tables that could not be written. -/
  errors : List Unwritten
  /-- The lines of the log. -/
  lines : List Log.Line

/-- A progress with a report and a log that are longer than before. -/
structure Progress.Adds (before after : Progress) (addition : Addition) : Prop where
  /-- The entries and the errors come behind those before, and the warnings are counted. -/
  report : after.report =
    { modules := before.report.modules ++ addition.entries
      warningCount := before.report.warningCount + addition.warnings
      errors := before.report.errors ++ addition.errors }
  /-- The lines come behind those before. -/
  lines : after.log = before.log ++ addition.lines

/-- To two progresses the same has been added, and their disks have been changed alike. -/
structure Progress.AlikeAfter (first firstAfter second secondAfter : Progress) : Prop where
  /-- The disks are changed alike. -/
  disks : ChangedAlike first.disk second.disk firstAfter.disk secondAfter.disk
  /-- The same is added. -/
  added : ∃ addition, first.Adds firstAfter addition ∧ second.Adds secondAfter addition

/-- The tables that a report names are the same on two disks. -/
def Report.SameTables (report : Report) (first second : Disk) : Prop :=
  ∀ path ∈ report.written, AlikeAlong first second path

theorem Report.SameTables.later
    {report : Report}
    {first second firstAfter secondAfter : Disk}
    (same : report.SameTables first second)
    (changed : ChangedAlike first second firstAfter secondAfter) :
    report.SameTables firstAfter secondAfter :=
  fun path named => changed.alikeAlong (same path named)

namespace Collector

variable
  {collector : Collector}
  {first second : Progress}
  {module : Text}

/-- The locations that the table of a module needs are among some locations. -/
abbrev Keeps
    (collector : Collector)
    (disk : Disk)
    (places : Location → Prop)
    (module : Text) :
    Prop :=
  Table.Keeps disk places collector.settings.saveFolder module collector.settings.locale
    collector.settings.format

/-- Where a survey is the same, the attempts to write its table are alike. -/
theorem attempt_alike
    {disk other : Disk}
    (here : other.here = disk.here)
    (surveyed : collector.survey other module = collector.survey disk module)
    (keeps : collector.Keeps disk (SameShapeAt disk other) module) :
    AlikeResults disk other (collector.attempt disk module) (collector.attempt other module) := by
  unfold attempt
  rw [surveyed]
  exact Table.write_alike here keeps collector.access _

/-- What the turn of a module adds after its survey, by what became of its table. -/
def addition
    (collector : Collector)
    (survey : Survey)
    (attempted : Except Table.WriteError Table.Written) :
    Addition :=
  let module := survey.module
  if survey.entities.isEmpty then
    ⟨[reportOn survey none], survey.warnings, [],
      survey.log ++ [Log.debug ("No entities in module '".toList ++ module ++ "'".toList)]⟩
  else
    match attempted with
    | .ok table =>
        ⟨[reportOn survey (some table.path)], survey.warnings, [],
          survey.log ++ writtenLines module table⟩
    | .error cause =>
        let unwritten : Unwritten := ⟨module, collector.tablePath module, cause⟩
        ⟨[reportOn survey none], survey.warnings, [unwritten],
          survey.log ++ [Log.error unwritten.message]⟩

/-- A turn adds what follows from the survey and the attempt to write the table. -/
theorem adds_collectModule
    (collector : Collector)
    (progress : Progress)
    (module : Text) :
    progress.Adds (collector.collectModule progress module)
      (collector.addition (collector.survey progress.disk module)
        (collector.attempt progress.disk module).2) := by
  cases done : collector.attempt progress.disk module with
  | mk after attempted =>
      have written := writeTable_eq done
      unfold collectModule addition
      simp only [module_survey]
      split
      · constructor <;> simp
      · rw [written]
        cases attempted with
        | error cause => constructor <;> simp [Except.mapError]
        | ok table => constructor <;> simp [Except.mapError]

/-- A turn leaves the disk of the attempt, if there was anything to write. -/
theorem disk_collectModule_eq
    (collector : Collector)
    (progress : Progress)
    (module : Text) :
    (collector.collectModule progress module).disk =
      if (collector.survey progress.disk module).entities.isEmpty then progress.disk
      else (collector.attempt progress.disk module).1 := by
  cases collectModule_ends collector progress module with
  | idle nothing same report => rw [same, if_pos nothing]
  | written something table done report => rw [if_neg (by simp [something]), done]
  | failed something cause done report => rw [if_neg (by simp [something]), done]

section Turn

variable
  (here : second.disk.here = first.disk.here)
  (surveyed : collector.survey second.disk module = collector.survey first.disk module)
  (keeps : collector.Keeps first.disk (SameShapeAt first.disk second.disk) module)

include here surveyed keeps

/-- Where a survey is the same, the turn of the module adds the same. -/
theorem collectModule_alike :
    Progress.AlikeAfter first (collector.collectModule first module) second
      (collector.collectModule second module) := by
  have attempts := attempt_alike here surveyed keeps
  constructor
  · rw [disk_collectModule_eq, disk_collectModule_eq, surveyed]
    split
    · exact .refl _ _
    · exact attempts.disks
  · refine ⟨_, adds_collectModule collector first module, ?_⟩
    have adds := adds_collectModule collector second module
    rwa [surveyed, attempts.results] at adds

/-- A table that is written at the turn is the same on both disks, as those before are. -/
theorem sameTables_collectModule
    (same : first.report.SameTables first.disk second.disk) :
    let after := collector.collectModule first module
    after.report.SameTables after.disk (collector.collectModule second module).disk := by
  intro after
  have changed := (collectModule_alike here surveyed keeps).disks
  have earlier := same.later changed
  cases collectModule_ends collector first module with
  | idle nothing disk report =>
      have written : after.report.written = first.report.written := by
        simp [after, report, Report.written, reportOn]
      rwa [Report.SameTables, written]
  | failed something cause done report =>
      have written : after.report.written = first.report.written := by
        simp [after, report, Report.written, reportOn]
      rwa [Report.SameTables, written]
  | written something table done report =>
      have written : after.report.written =
          first.report.written ++ [collector.tablePath module] := by
        simp [after, report, Report.written, reportOn]
      rw [Report.SameTables, written]
      intro path named
      rcases List.mem_append.mp named with before | own
      · exact earlier path before
      · obtain rfl := List.mem_singleton.mp own
        rw [disk_collectModule_eq collector second, surveyed, if_neg (by simp [something]), attempt,
          surveyed]
        exact Table.alikeAlong_of_write here keeps done

end Turn

/-! ## One turn after the other -/

/-- Two disks are alike for the turn of a module, however they are changed alike before it. -/
structure AlikeFor
    (collector : Collector)
    (first second : Disk)
    (module : Text) : Prop where
  /-- The survey of the module is the same. -/
  surveyed : ∀ firstAfter secondAfter, ChangedAlike first second firstAfter secondAfter →
    collector.survey secondAfter module = collector.survey firstAfter module
  /-- Where its table is written there are nodes of the same kinds. -/
  keeps : collector.Keeps first (SameShapeAt first second) module

theorem AlikeFor.later
    {disk other diskAfter otherAfter : Disk}
    (alike : collector.AlikeFor disk other module)
    (changed : ChangedAlike disk other diskAfter otherAfter) :
    collector.AlikeFor diskAfter otherAfter module :=
  ⟨fun last otherLast later => alike.surveyed last otherLast (changed.trans later),
    (alike.keeps.mono fun _ => changed.sameShapeAt).congr changed.here⟩

/-- Progresses with the same report and the same log. -/
structure SameSoFar (first second : Progress) : Prop where
  /-- The reports are the same. -/
  report : second.report = first.report
  /-- The logs are the same. -/
  log : second.log = first.log

theorem SameSoFar.of_adds
    {firstAfter secondAfter : Progress}
    (same : SameSoFar first second)
    (added : ∃ addition, first.Adds firstAfter addition ∧ second.Adds secondAfter addition) :
    SameSoFar firstAfter secondAfter := by
  obtain ⟨addition, adds, addsSecond⟩ := added
  constructor
  · rw [addsSecond.report, adds.report, same.report]
  · rw [addsSecond.lines, adds.lines, same.log]

section Turns

variable
  {modules : List Text}
  (here : second.disk.here = first.disk.here)
  (alike : ∀ module ∈ modules, collector.AlikeFor first.disk second.disk module)

include here alike

/-- The turns of modules go alike, and change the disks alike. -/
theorem foldl_collectModule_alike (same : SameSoFar first second) :
    let last := modules.foldl collector.collectModule first
    let lastSecond := modules.foldl collector.collectModule second
    SameSoFar last lastSecond ∧
      ChangedAlike first.disk second.disk last.disk lastSecond.disk ∧
      (first.report.SameTables first.disk second.disk →
        last.report.SameTables last.disk lastSecond.disk) := by
  induction modules generalizing first second with
  | nil => exact ⟨same, .refl _ _, id⟩
  | cons module modules ih =>
      obtain ⟨alikeHere, alike⟩ := List.forall_mem_cons.mp alike
      have surveyed := alikeHere.surveyed _ _ (.refl first.disk second.disk)
      have turn := collectModule_alike here surveyed alikeHere.keeps
      obtain ⟨sameLast, changed, tables⟩ := ih (turn.disks.sameHere here)
        (fun other member => (alike other member).later turn.disks) (same.of_adds turn.added)
      refine ⟨sameLast, turn.disks.trans changed, fun before => tables ?_⟩
      exact sameTables_collectModule here surveyed alikeHere.keeps before

/-- At their turns the modules have the same surveys. -/
theorem map_surveyAt_turns_alike :
    (collector.turns second.disk modules).map collector.surveyAt =
      (collector.turns first.disk modules).map collector.surveyAt := by
  induction modules generalizing first second with
  | nil => rfl
  | cons module modules ih =>
      obtain ⟨alikeHere, alike⟩ := List.forall_mem_cons.mp alike
      have surveyed := alikeHere.surveyed _ _ (.refl first.disk second.disk)
      have turn := collectModule_alike here surveyed alikeHere.keeps
      simp only [turns, disk_collectModule, List.map_cons, surveyAt, surveyed]
      rw [ih (turn.disks.sameHere here) fun other member => (alike other member).later turn.disks]

end Turns

/-! ## Runs -/

/-- Two disks give collections that tell the same and write the same. -/
structure SameRuns
    (collector : Collector)
    (filter : Option Text)
    (first second : Disk) : Prop where
  /-- The results are the same, with every count in a report. -/
  result : (collector.run second filter).result = (collector.run first filter).result
  /-- The logs are the same. -/
  log : (collector.run second filter).log = (collector.run first filter).log
  /-- The same modules are collected, and at their turns they have the same surveys. -/
  surveys : collector.modules second filter = collector.modules first filter ∧
    ∀ modules, collector.modules first filter = .ok modules →
      (collector.turns second modules).map collector.surveyAt =
        (collector.turns first modules).map collector.surveyAt
  /-- The tables that are named in a report are the same. -/
  tables : ∀ report, (collector.run first filter).result = .ok report →
    ∀ path ∈ report.written,
      (collector.run second filter).disk.find path = (collector.run first filter).disk.find path

/-- Disks that are alike for the modules that are collected give the same collections. -/
theorem sameRuns_of_alikeFor
    {filter : Option Text}
    {disk other : Disk}
    (here : other.here = disk.here)
    (listed : collector.modules other filter = collector.modules disk filter)
    (complained : collector.complaints other filter = collector.complaints disk filter)
    (alike : ∀ module : Text, Path.IsPlainName module → collector.isModule disk module = true →
      collector.AlikeFor disk other module) :
    collector.SameRuns filter disk other := by
  cases modulesOf : collector.modules disk filter with
  | error unlisted =>
      rw [modulesOf] at listed
      constructor
      case result => simp only [run, modulesOf, listed]
      case log => simp only [run, modulesOf, listed]
      case surveys => exact ⟨listed.trans modulesOf.symm, fun _ some => by simp [modulesOf] at some⟩
      case tables => exact fun _ ran => by simp [run, modulesOf] at ran
  | ok modules =>
      rw [modulesOf] at listed
      let begun := [Log.info "Collecting text...".toList]
      let start : Progress := { disk, log := begun ++ collector.complaints disk filter }
      let startOther : Progress :=
        { disk := other, log := begun ++ collector.complaints other filter }
      have alikeAll : ∀ module ∈ modules, collector.AlikeFor disk other module :=
        fun module member => alike module (of_mem_modules modulesOf member).1
          (of_mem_modules modulesOf member).2
      have sameStart : SameSoFar start startOther :=
        ⟨rfl, by simp only [startOther, start, complained]⟩
      have surveys : (collector.turns startOther.disk modules).map collector.surveyAt =
          (collector.turns start.disk modules).map collector.surveyAt :=
        map_surveyAt_turns_alike here alikeAll
      obtain ⟨same, -, tables⟩ := foldl_collectModule_alike here alikeAll sameStart
      have delivered := tables (by simp [Report.SameTables, start, Report.written])
      constructor
      case result =>
        simp only [run, modulesOf, listed]
        exact congrArg Except.ok same.report
      case log =>
        simp only [run, modulesOf, listed]
        rw [same.log]
      case surveys =>
        refine ⟨listed.trans modulesOf.symm, fun others found => ?_⟩
        obtain rfl := Except.ok.inj (modulesOf.symm.trans found)
        exact surveys
      case tables =>
        simp only [run, modulesOf, listed, Except.ok.injEq]
        rintro _ rfl path named
        exact Disk.find_congr (delivered path named)

end Collector
end Phrasebook
