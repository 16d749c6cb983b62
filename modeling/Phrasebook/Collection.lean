import Phrasebook.Survey
import Phrasebook.Table.Store

/-!
# Collections

A collection surveys the modules of a site one after the other and writes a table for each module
that has entities.  A table that cannot be written is reported, and the collection goes on.
-/

namespace Phrasebook

/-- A table that could not be written. -/
structure Unwritten where
  /-- The module of the table. -/
  module : Text
  /-- Where the table was to be. -/
  path : Path
  /-- Why it is not there. -/
  cause : Table.WriteError
  deriving DecidableEq

/-- The sentence that reports a table that could not be written. -/
def Unwritten.message (unwritten : Unwritten) : Text :=
  "cannot write language file for module '".toList ++ unwritten.module ++ "' at ".toList ++
    unwritten.path.display ++ ": ".toList ++ unwritten.cause.message

/-- What a collection has done for one module. -/
structure ModuleReport where
  /-- The module. -/
  module : Text
  /-- How many entities it has. -/
  entities : Nat
  /-- How often a different record was replaced. -/
  overwritten : Nat
  /-- How much was left out. -/
  warnings : Nat
  /-- How many files were read. -/
  filesScanned : Nat
  /-- The path of its table, if one was written. -/
  output : Option Path
  deriving DecidableEq

/-- What a collection has done. -/
structure Report where
  /-- The reports on the modules, in order. -/
  modules : List ModuleReport := []
  /-- The number of warnings so far. -/
  warningCount : Nat := 0
  /-- The tables that could not be written, in order. -/
  errors : List Unwritten := []
  deriving DecidableEq

namespace Report

/-- The number of entities of all modules. -/
def totalEntities (report : Report) : Nat :=
  report.modules.foldr (fun entry total => entry.entities + total) 0

/-- The paths of the tables that were written. -/
def written (report : Report) : List Path :=
  report.modules.filterMap ModuleReport.output

end Report

/-- The folder of the modules cannot be listed. -/
structure Unlisted where
  /-- The folder. -/
  base : Path
  /-- What the disk reported. -/
  cause : Disk.Error
  deriving DecidableEq

/-- The sentences that report that the folder cannot be listed, the outermost first. -/
def Unlisted.sentences (unlisted : Unlisted) : List Text :=
  ("Failed to read base directory: ".toList ++ unlisted.base.display) :: unlisted.cause.sentences

/-- The disk, the report and the log after some modules. -/
structure Progress where
  /-- The disk. -/
  disk : Disk
  /-- The report. -/
  report : Report := {}
  /-- The lines of the log. -/
  log : List Log.Line := []

/-- What became of a collection. -/
structure Collection where
  /-- The disk afterwards. -/
  disk : Disk
  /-- The lines of the log. -/
  log : List Log.Line
  /-- The report, unless there was nothing to report on. -/
  result : Except Unlisted Report

namespace Collector

/-- A module is a visible folder that holds the marker. -/
def isModule (collector : Collector) (disk : Disk) (name : Text) : Bool :=
  let folder := collector.moduleFolder name
  !Path.isHiddenName name && disk.holdsFolder folder &&
    disk.holdsFile (folder.join collector.settings.marker)

/-- The names that may be those of modules: the one that is asked for, or all in the folder. -/
def candidates (collector : Collector) (disk : Disk) (filter : Option Text) :
    Except Unlisted (List Text) :=
  match filter with
  | some filter => .ok (Path.ofText filter).textName?.toList
  | none =>
      match disk.list collector.access collector.settings.base with
      | .error cause => .error ⟨collector.settings.base, cause⟩
      | .ok paths => .ok (paths.filterMap Path.textName?)

/-- A line about a name that was asked for and is no module. -/
def notAModule (collector : Collector) (name : Text) : Log.Line :=
  Log.warn
    ("'".toList ++ name ++ "' is not a module (missing ".toList ++ collector.settings.marker ++
      ")".toList)

/-- The modules to be collected, in order. -/
def modules (collector : Collector) (disk : Disk) (filter : Option Text) :
    Except Unlisted (List Text) :=
  (collector.candidates disk filter).map fun names => names.filter (collector.isModule disk)

/-- The lines about a name that was asked for, if it is no module. -/
def complaints (collector : Collector) (disk : Disk) (filter : Option Text) : List Log.Line :=
  match filter.bind fun filter => (Path.ofText filter).textName? with
  | none => []
  | some name => if collector.isModule disk name then [] else [collector.notAModule name]

/-- The report on a module after its survey. -/
def reportOn (survey : Survey) (output : Option Path) : ModuleReport where
  module := survey.module
  entities := survey.entities.size
  overwritten := survey.overwritten
  warnings := survey.warnings
  filesScanned := survey.filesScanned
  output := output

/-- The path of the table of a module. -/
def tablePath (collector : Collector) (module : Text) : Path :=
  Table.pathOf collector.settings.saveFolder module collector.settings.locale
    collector.settings.format

/-- The disk with the table of a module, and what was written. -/
def writeTable (collector : Collector) (disk : Disk) (module : Text) (entities : Entity.Map) :
    Disk × Except Unwritten Table.Written :=
  let attempt :=
    Table.write disk collector.access collector.settings.saveFolder module
      collector.settings.locale collector.settings.format entities
  (attempt.1, attempt.2.mapError fun cause => ⟨module, collector.tablePath module, cause⟩)

/-- The lines about a table that was written. -/
def writtenLines (module : Text) (written : Table.Written) : List Log.Line :=
  (written.skipped.map fun cause =>
      Log.warn ("Module '".toList ++ module ++ "': ".toList ++ cause.message)) ++
    [Log.info ("Created file: ".toList ++ written.path.display)]

/-- The progress after one more module. -/
def collectModule (collector : Collector) (progress : Progress) (module : Text) : Progress :=
  let survey := collector.survey progress.disk module
  let log := progress.log ++ survey.log
  let report :=
    { progress.report with warningCount := progress.report.warningCount + survey.warnings }
  if survey.entities.isEmpty then
    { disk := progress.disk
      report := { report with modules := report.modules ++ [reportOn survey none] }
      log := log ++ [Log.debug ("No entities in module '".toList ++ module ++ "'".toList)] }
  else
    match collector.writeTable progress.disk module survey.entities with
    | (disk, .ok written) =>
        { disk
          report :=
            { report with modules := report.modules ++ [reportOn survey (some written.path)] }
          log := log ++ writtenLines module written }
    | (disk, .error unwritten) =>
        { disk
          report :=
            { report with
              modules := report.modules ++ [reportOn survey none]
              errors := report.errors ++ [unwritten] }
          log := log ++ [Log.error unwritten.message] }

/-- All modules, or the one that is asked for, are collected. -/
def run (collector : Collector) (disk : Disk) (filter : Option Text) : Collection :=
  let begun := [Log.info "Collecting text...".toList]
  match collector.modules disk filter with
  | .error unlisted => ⟨disk, begun, .error unlisted⟩
  | .ok modules =>
      let start : Progress := { disk, log := begun ++ collector.complaints disk filter }
      let progress := modules.foldl collector.collectModule start
      ⟨progress.disk, progress.log ++ [Log.info "Done!".toList], .ok progress.report⟩

end Collector
end Phrasebook
