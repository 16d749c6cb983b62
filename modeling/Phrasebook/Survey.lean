import Phrasebook.Declared
import Phrasebook.Disk.Walk
import Phrasebook.Glob.Match
import Phrasebook.Include.Expansion
import Phrasebook.Log

/-!
# Surveys of modules

A survey reads one module: its code files, then what is declared for it, then its templates.  The
entities are merged in this order and later ones win; every overwriting is counted.  Files that
cannot be read are passed over with a warning.

Code lies in a folder of its own; only the module of the framework may do without one and is then
read as a whole.  In code, keys must name their namespace, and in a template the file name is the
namespace of bare keys.
-/

namespace Phrasebook

/-- What a collection works with besides the disk. -/
structure Collector where
  /-- The settings. -/
  settings : Settings
  /-- The patterns of files that are passed over. -/
  ignored : List (List Glob.Token)
  /-- The access to the disk. -/
  access : Access := .full
  /-- The declared entities. -/
  declared : Declared := {}
  /-- The lookup of includes. -/
  resolver : Include.Resolver := Include.find? settings

/-- What a survey of a module has gathered. -/
structure Survey where
  /-- The module. -/
  module : Text
  /-- Its entities. -/
  entities : Entity.Map := Dictionary.empty
  /-- How often a different record was replaced. -/
  overwritten : Nat := 0
  /-- How much was left out. -/
  warnings : Nat := 0
  /-- How many files were read. -/
  filesScanned : Nat := 0
  /-- The lines of the log. -/
  log : List Log.Line := []
  deriving DecidableEq

namespace Survey

/-- The survey with one more line in the log. -/
def note (survey : Survey) (line : Log.Line) : Survey :=
  { survey with log := survey.log ++ [line] }

/-- The survey with more lines in the log. -/
def noteAll (survey : Survey) (lines : List Log.Line) : Survey :=
  { survey with log := survey.log ++ lines }

/-- The survey with one more map of entities, which wins; the map has overwritings of its own. -/
def merge (survey : Survey) (entities : Entity.Map) (overwritten : Nat) : Survey :=
  let merged := survey.entities.merge entities
  { survey with
    entities := merged.1
    overwritten := survey.overwritten + (overwritten + merged.2) }

/-- A line about a warning from a file. -/
def warningLine (path : Path) (warning : Warning) : Log.Line :=
  Log.warn (path.display ++ ": ".toList ++ warning.message)

/-- A line about the overwritings of a file. -/
def overwritingLine (path : Path) (count : Nat) : Log.Line :=
  Log.debug (path.display ++ ": ".toList ++ Text.ofNat count ++ " key(s) overwritten".toList)

/-- The lines about a harvest of a file that replaces some records. -/
def harvestLines (path : Path) (harvest : Harvest) (replaced : Nat) : List Log.Line :=
  harvest.warnings.map (warningLine path) ++
    if replaced = 0 then [] else [overwritingLine path replaced]

/-- The survey with the harvest of a file, which wins. -/
def absorb (survey : Survey) (path : Path) (harvest : Harvest) : Survey :=
  let replaced := harvest.overwritten + (survey.entities.merge harvest.entities).2
  { survey.merge harvest.entities harvest.overwritten with
    warnings := survey.warnings + harvest.warnings.length
    log := survey.log ++ harvestLines path harvest replaced }

/-- The survey after a file, of which the text yields a harvest. -/
def visit
    (disk : Disk)
    (access : Access)
    (harvest : Path → Text → Harvest)
    (survey : Survey)
    (path : Path) :
    Survey :=
  match disk.readLossy access path with
  | .error cause =>
      { survey with warnings := survey.warnings + 1 }.note
        (Log.warn ("Failed to read ".toList ++ path.display ++ ": ".toList ++ cause.headline))
  | .ok text =>
      { survey with filesScanned := survey.filesScanned + 1 }.absorb path (harvest path text)

end Survey

namespace Collector

/-- A collector with full access and nothing declared, unless a pattern is not well formed. -/
def ofSettings (settings : Settings) : Except Settings.Error Collector :=
  settings.patterns.map fun ignored => { settings, ignored }

/-- The folder of a module. -/
def moduleFolder (collector : Collector) (module : Text) : Path :=
  collector.settings.base.join module

/-- A file is passed over when its path in the module is a text that matches a pattern. -/
def isIgnored (collector : Collector) (module : Path) (file : Path) : Bool :=
  match Text.decode? ((Path.relativeTo? module file).getD file).bytes with
  | none => false
  | some relative => collector.ignored.any fun pattern => Glob.accepts pattern relative

/-- The file has the suffix and is not passed over. -/
def isSelected (collector : Collector) (module : Path) (extension : Text) (file : Path) : Bool :=
  file.textExtension? = some extension && !collector.isIgnored module file

/-- The selected files below a folder of a module. -/
def filesWithExtension
    (collector : Collector)
    (disk : Disk)
    (module root : Path)
    (extension : Text) :
    Except Disk.Error (List Path) :=
  (disk.walk collector.access root).map fun walk =>
    walk.files.filter (collector.isSelected module extension)

/-- A line about a folder that could not be listed. -/
def closedLine (folder : Path) (cause : Disk.SystemError) : Log.Line :=
  Log.warn
    ("Skipping ".toList ++ folder.display ++ ": IO error for operation on ".toList ++
      folder.display ++ ": ".toList ++ cause.message)

/-- The lines about the folders that a walk passes over. -/
def closedLines (collector : Collector) (disk : Disk) (root : Path) : List Log.Line :=
  (disk.passedOver collector.access root).map fun (folder, cause) => closedLine folder cause

/-- The survey after the selected files below a folder. -/
def visitFolder
    (collector : Collector)
    (disk : Disk)
    (extension : Text)
    (harvest : Path → Text → Harvest)
    (root : Path)
    (survey : Survey) :
    Survey :=
  let module := collector.moduleFolder survey.module
  match collector.filesWithExtension disk module root extension with
  | .error cause =>
      survey.note
        (Log.warn ("Failed to list ".toList ++ root.display ++ ": ".toList ++ cause.message))
  | .ok files =>
      files.foldl (Survey.visit disk collector.access harvest)
        (survey.noteAll (collector.closedLines disk root))

/-- The folder in which the code of a module lies. -/
def codeRoot? (collector : Collector) (disk : Disk) (module : Text) : Option Path :=
  let folder := collector.moduleFolder module
  let codeFolder := folder.join collector.settings.codeFolder
  if disk.holdsFolder codeFolder then some codeFolder
  else if module = collector.settings.framework then some folder
  else none

/-- The folder in which the templates of a module lie. -/
def templateRoot? (collector : Collector) (disk : Disk) (module : Text) : Option Path :=
  let folder := (collector.moduleFolder module).join collector.settings.templateFolder
  if disk.holdsFolder folder then some folder else none

/-- The harvest of code, in which keys name their namespace. -/
def harvestCode (collector : Collector) (text : Text) : Harvest :=
  Harvest.ofText collector.settings.function none text

/-- The surroundings in which templates are expanded. -/
def expansion (collector : Collector) (disk : Disk) : Include.Setting where
  function := collector.settings.function
  extension := collector.settings.templateExtension
  resolve := collector.resolver disk collector.access
  disk := disk
  access := collector.access

/-- The harvest of a template with a namespace for bare keys, and of what it includes. -/
def harvestTemplate
    (collector : Collector)
    (disk : Disk)
    (path : Option Path)
    (space text : Text) :
    Harvest :=
  (collector.expansion disk).harvest path space text

/-- The survey after the code of the module. -/
def visitCode (collector : Collector) (disk : Disk) (survey : Survey) : Survey :=
  match collector.codeRoot? disk survey.module with
  | none => survey
  | some root =>
      collector.visitFolder disk collector.settings.codeExtension
        (fun _ text => collector.harvestCode text) root survey

/-- The survey after what is declared for the module. -/
def visitDeclared (collector : Collector) (survey : Survey) : Survey :=
  let declared := collector.declared.collect survey.module
  survey.merge declared.1 declared.2

/-- The survey after the templates of the module. -/
def visitTemplates (collector : Collector) (disk : Disk) (survey : Survey) : Survey :=
  match collector.templateRoot? disk survey.module with
  | none => survey
  | some root =>
      collector.visitFolder disk collector.settings.templateExtension
        (fun path text =>
          collector.harvestTemplate disk (some path) (path.textName?.getD []) text)
        root survey

/-- The survey with a line about its overwritings, if there are any. -/
def reportOverwritings (survey : Survey) : Survey :=
  if survey.overwritten = 0 then
    survey
  else
    survey.note
      (Log.warn
        ("Module '".toList ++ survey.module ++ "': ".toList ++ Text.ofNat survey.overwritten ++
          " key(s) defined more than once with different values (last one kept)".toList))

/-- The survey of a module on a disk. -/
def survey (collector : Collector) (disk : Disk) (module : Text) : Survey :=
  let start : Survey := { module }
  let begun := start.note (Log.info ("Processing module '".toList ++ module ++ "'".toList))
  let withCode := collector.visitCode disk begun
  let withDeclared := collector.visitDeclared withCode
  reportOverwritings (collector.visitTemplates disk withDeclared)

end Collector
end Phrasebook
