import Phrasebook.Collection

/-!
# Summaries

A collection from the command line begins with the settings and ends with a summary of what was
done for each module, in columns.
-/

namespace Phrasebook

/-- Why a collection from the command line fails. -/
inductive Failure where
  /-- The settings are not valid. -/
  | settings (cause : Settings.Error)
  /-- The format on the command line is none. -/
  | unknownFormat (text : Text)
  /-- The folder of the modules cannot be listed. -/
  | unlisted (cause : Unlisted)
  /-- Some tables could not be written. -/
  | unwritten (count : Nat)
  deriving DecidableEq

/-- The sentences that report a failure, the outermost first. -/
def Failure.sentences : Failure → List Text
  | settings cause => cause.sentences
  | unknownFormat text => ["Unknown output format: ".toList ++ text]
  | unlisted cause => cause.sentences
  | unwritten count => [Text.ofNat count ++ " module(s) could not be written".toList]

/-- What became of a collection from the command line. -/
structure Summary where
  /-- The disk afterwards. -/
  disk : Disk
  /-- The lines that were reported. -/
  lines : List Log.Line
  /-- Whether everything was written. -/
  result : Except Failure Unit

namespace Summary

/-- The lines about the settings. -/
def opening (settings : Settings) (filter : Option Text) : List Log.Line :=
  let moduleLine :=
    match filter with
    | none => []
    | some module => ["  Module: ".toList ++ module]
  (["=== text-collector collect ===\n".toList,
      "Configuration:".toList,
      "  Base path: ".toList ++ settings.base.display,
      "  Save path: ".toList ++ settings.saveFolder.display,
      "  Default locale: ".toList ++ settings.locale,
      "  Function: ".toList ++ settings.function,
      "  Output format: ".toList ++ settings.format.name] ++ moduleLine ++ [[]]).map .result

/-- A line of the table with a name and a number in columns. -/
def columns (name : Text) (number : Nat) : Text :=
  "  ".toList ++ Text.padRight 24 name ++ ' ' :: Text.padLeft 5 (Text.ofNat number)

/-- The lines about a module. -/
def moduleLines (report : ModuleReport) : List Text :=
  let output := (report.output.map Path.display).getD ['-']
  let counts :=
    columns report.module report.entities ++ " entities  ".toList ++
      Text.padLeft 4 (Text.ofNat report.filesScanned) ++ " files  ".toList ++ output
  let overwritings :=
    if report.overwritten = 0 then []
    else [columns [] report.overwritten ++ " overwritten key(s)".toList]
  counts :: overwritings

/-- The lines about all modules. -/
def closing (report : Report) : List Log.Line :=
  let rule := List.replicate 60 '-'
  let warnings :=
    if report.warningCount = 0 then []
    else ["  Warnings: ".toList ++ Text.ofNat report.warningCount]
  (["\nCollection Summary:".toList, rule] ++ report.modules.flatMap moduleLines ++
      [rule,
        "  Modules: ".toList ++ Text.ofNat report.modules.length,
        "  Entities: ".toList ++ Text.ofNat report.totalEntities] ++ warnings).map .result

/-- The lines about tables that could not be written. -/
def failures (report : Report) : List Log.Line :=
  if report.errors = [] then
    []
  else
    .failure "\nWrite errors:".toList ::
      report.errors.map fun unwritten => .failure ("  ".toList ++ unwritten.message)

/-- The lines at the end, and whether everything was written. -/
def conclusion (report : Report) : List Log.Line × Except Failure Unit :=
  if report.modules = [] then
    ([.result "No modules found.".toList], .ok ())
  else
    ( closing report ++ failures report,
      if report.errors = [] then .ok () else .error (.unwritten report.errors.length) )

/-- A collection with a summary. -/
def collect (settings : Settings) (disk : Disk) (filter : Option Text) : Summary :=
  let begun := opening settings filter
  match Collector.ofSettings settings with
  | .error cause => ⟨disk, begun, .error (.settings cause)⟩
  | .ok collector =>
      let collection := collector.run disk filter
      let lines := begun ++ collection.log
      match collection.result with
      | .error unlisted => ⟨collection.disk, lines, .error (.unlisted unlisted)⟩
      | .ok report =>
          let ending := conclusion report
          ⟨collection.disk, lines ++ ending.1, ending.2⟩

end Summary
end Phrasebook
