import Phrasebook.Disk.Access
import Phrasebook.Glob.Pattern
import Phrasebook.Json.Reader
import Phrasebook.Log
import Phrasebook.Table.Format

/-!
# Settings

The settings tell where modules lie, how their folders and files are called, which function is
looked for and how the tables are written.  They are read from a JSON text, either from an object,
in which unknown members are passed over, or from an array with the values in a fixed order.  What
is not given keeps its default.

Settings are valid when they name a function, a locale that can be part of a file name, well-formed
patterns and a level of the log.
-/

namespace Phrasebook

/-- What a collection is to be done with. -/
structure Settings where
  /-- The folder of the modules. -/
  base : Path := .ofText ".".toList
  /-- The folder for the tables, if it is another one. -/
  save : Option Path := none
  /-- The locale that the tables are for. -/
  locale : Text := "en_US".toList
  /-- The name of the lookup function. -/
  function : Text := "_t".toList
  /-- The file that makes a folder a module. -/
  marker : Text := "_config.php".toList
  /-- The folder of code in a module. -/
  codeFolder : Text := "code".toList
  /-- The folder of templates in a module. -/
  templateFolder : Text := "templates".toList
  /-- The folder of included templates in the folder of templates. -/
  includeFolder : Text := "Includes".toList
  /-- The module whose code need not lie in a folder of its own. -/
  framework : Text := "sapphire".toList
  /-- The suffix of code files. -/
  codeExtension : Text := "php".toList
  /-- The suffix of templates. -/
  templateExtension : Text := "ss".toList
  /-- How the tables are written. -/
  format : Table.Format := .php
  /-- Patterns of files that are passed over, by their paths in a module. -/
  ignored : List Text := []
  /-- The name of the active level of the log. -/
  logLevel : Text := "info".toList
  deriving DecidableEq

namespace Settings

/-- What is wrong with settings. -/
inductive Error where
  /-- The file cannot be read. -/
  | unreadable (path : Path) (cause : Disk.Error)
  /-- The file does not hold settings. -/
  | malformedFile (path : Path)
  /-- The text does not hold settings. -/
  | malformedText
  /-- The name of the function is blank. -/
  | emptyFunction
  /-- The locale is blank. -/
  | emptyLocale
  /-- The locale cannot be part of a file name or of a literal. -/
  | invalidLocale (locale : Text)
  /-- A pattern is not well formed. -/
  | invalidPattern (pattern : Text) (cause : Glob.Error)
  /-- The level of the log is none. -/
  | unknownLevel (level : Text)
  deriving DecidableEq

/-- The sentences that report an error, the outermost first. -/
def Error.sentences : Error → List Text
  | unreadable path cause =>
      ("Failed to read config file: ".toList ++ path.display) :: cause.sentences
  | malformedFile path => ["Failed to parse config file: ".toList ++ path.display]
  | malformedText => ["Failed to parse config JSON string".toList]
  | emptyFunction => ["`function` must not be empty".toList]
  | emptyLocale => ["`defaultLocale` must not be empty".toList]
  | invalidLocale locale => ["Invalid `defaultLocale`: ".toList ++ locale]
  | invalidPattern pattern cause =>
      ["Invalid ignore glob pattern: ".toList ++ pattern, cause.message]
  | unknownLevel level => [Log.unknownLevel level]

/-- The folder below which the tables are written. -/
def saveFolder (settings : Settings) : Path :=
  settings.save.getD settings.base

/-- The active level of the log. -/
def level (settings : Settings) : Except Error Log.Level :=
  match Log.Level.parse? settings.logLevel with
  | none => .error (.unknownLevel settings.logLevel)
  | some level => .ok level

/-- The tokens of a pattern for files that are passed over. -/
def parsePattern (pattern : Text) : Except Error (List Glob.Token) :=
  (Glob.parse pattern).mapError (.invalidPattern pattern)

/-- The tokens of all patterns for files that are passed over. -/
def patterns (settings : Settings) : Except Error (List (List Glob.Token)) :=
  settings.ignored.mapM parsePattern

/-- The first thing that is wrong with the settings, if anything is. -/
def validate (settings : Settings) : Except Error Unit := do
  if Text.isAllBlank settings.function then
    throw .emptyFunction
  if Text.isAllBlank settings.locale then
    throw .emptyLocale
  if settings.locale.any fun char => char = '/' || char = '\x5c' || char = '\x27' then
    throw (.invalidLocale settings.locale)
  let _ ← settings.patterns
  let _ ← settings.level

/-- A text that a raw value writes. -/
def textOf? : Json.Raw → Option Text
  | .string pieces => Json.text? pieces
  | _ => none

/-- The texts that a raw array writes. -/
def textsOf? : Json.Raw → Option (List Text)
  | .array items => items.mapM textOf?
  | _ => none

/-- The path that a raw value writes, or none for `null`. -/
def optionalPathOf? : Json.Raw → Option (Option Path)
  | .null => some none
  | value => (textOf? value).map fun text => some (.ofText text)

/-- The format that a raw value names, by a text or by the only member of an object. -/
def formatOf? : Json.Raw → Option Table.Format
  | .string pieces => (Json.text? pieces).bind Table.Format.ofExtension?
  | .object [(name, .null)] => (Json.text? name).bind Table.Format.ofExtension?
  | _ => none

/-- A setting that can be given: its name, and how a raw value sets it. -/
structure Field where
  /-- The name of the member. -/
  name : Text
  /-- The settings with the value, unless it is of the wrong kind. -/
  set? : Json.Raw → Settings → Option Settings

/-- A setting that is a text. -/
def textField (name : String) (set : Text → Settings → Settings) : Field where
  name := name.toList
  set? value settings := (textOf? value).map fun text => set text settings

/-- The settings that can be given, in the order of their values in an array. -/
def fields : List Field :=
  [textField "basePath" fun text settings => { settings with base := .ofText text },
    ⟨"savePath".toList, fun value settings =>
      (optionalPathOf? value).map fun path => { settings with save := path }⟩,
    textField "defaultLocale" fun text settings => { settings with locale := text },
    textField "function" fun text settings => { settings with function := text },
    textField "moduleMarker" fun text settings => { settings with marker := text },
    textField "codeDir" fun text settings => { settings with codeFolder := text },
    textField "templatesDir" fun text settings => { settings with templateFolder := text },
    textField "includesDir" fun text settings => { settings with includeFolder := text },
    textField "frameworkModule" fun text settings => { settings with framework := text },
    textField "codeExtension" fun text settings => { settings with codeExtension := text },
    textField "templateExtension" fun text settings => { settings with templateExtension := text },
    ⟨"outputFormat".toList, fun value settings =>
      (formatOf? value).map fun format => { settings with format }⟩,
    ⟨"ignore".toList, fun value settings =>
      (textsOf? value).map fun patterns => { settings with ignored := patterns }⟩,
    textField "logLevel" fun text settings => { settings with logLevel := text }]

/-- The field of a name. -/
def field? (name : Text) : Option Field :=
  fields.find? fun field => field.name = name

/-- The names of the members of a raw object. -/
def memberNames? (members : List (List Json.Piece × Json.Raw)) : Option (List Text) :=
  members.mapM fun member => Json.text? member.1

/-- No setting is given twice. -/
def isDistinct (names : List Text) : Bool :=
  fields.all fun field => names.count field.name ≤ 1

/-- The settings after one more member; an unknown one changes nothing. -/
def setMember? (settings : Settings) (member : Text × Json.Raw) : Option Settings :=
  match field? member.1 with
  | none => some settings
  | some field => field.set? member.2 settings

/-- The settings that a raw value gives. -/
def ofRaw? : Json.Raw → Option Settings
  | .object members => do
      let names ← memberNames? members
      if isDistinct names then
        (names.zip (members.map Prod.snd)).foldlM setMember? {}
      else
        none
  | .array items =>
      if items.length ≤ fields.length then
        (fields.zip items).foldlM (fun settings given => given.1.set? given.2 settings) {}
      else
        none
  | _ => none

/-- The settings that a text gives, valid or not. -/
def read? (text : Text) : Option Settings :=
  (Json.Raw.read? text).bind ofRaw?

/-- The settings, if they are valid. -/
def validated (settings : Settings) : Except Error Settings :=
  settings.validate.map fun _ => settings

/-- The valid settings that a text gives. -/
def parse (text : Text) : Except Error Settings :=
  match read? text with
  | none => .error .malformedText
  | some settings => settings.validated

/-- The valid settings in the file at a path. -/
def load (disk : Disk) (path : Path) : Except Error Settings :=
  match disk.readText .full path with
  | .error cause => .error (.unreadable path cause)
  | .ok text =>
      match read? text with
      | none => .error (.malformedFile path)
      | some settings => settings.validated

/-- Where settings are looked for when no path is given. -/
def defaultPath : Path :=
  .ofText "text-collector.json".toList

/-- The settings at a path, or at the default path if there is something, or the defaults. -/
def loadOrDefault (disk : Disk) : Option Path → Except Error Settings
  | some path => load disk path
  | none => if disk.holds defaultPath then load disk defaultPath else .ok {}

end Settings
end Phrasebook
