import Phrasebook.Summary

/-!
# The command line

The program knows one command, `collect`.  Options are given in front of the command or behind it;
those for the settings file and the level of the log in either place, and behind the command they
win.  A value follows its option as the next argument or is attached to it, with or without an
equals sign where the option is a single letter.  No option is given twice in the same place.
-/

namespace Phrasebook
namespace CommandLine

/-- What an option is about. -/
inductive Subject where
  /-- The settings file. -/
  | config
  /-- The level of the log. -/
  | logLevel
  /-- The only module to be collected. -/
  | module
  /-- The folder of the modules. -/
  | base
  /-- The folder for the tables. -/
  | save
  /-- The locale of the tables. -/
  | locale
  /-- The format of the tables. -/
  | format
  deriving DecidableEq

/-- The value must not be empty where it is a path. -/
def Subject.isPath : Subject → Bool
  | config => true
  | base => true
  | save => true
  | _ => false

/-- What stands behind the dashes of an argument. -/
inductive Switch where
  /-- An option with a value. -/
  | option (subject : Subject)
  /-- The question how the program is used. -/
  | help
  /-- The question which version it is. -/
  | version
  deriving DecidableEq

/-- Where an argument stands. -/
inductive Place where
  /-- In front of the command. -/
  | front
  /-- Behind the command. -/
  | behind
  deriving DecidableEq

/-- The long names of switches in a place. -/
def longNames : Place → List (String × Switch)
  | .front =>
      [("config", .option .config), ("log-level", .option .logLevel), ("help", .help),
        ("version", .version)]
  | .behind =>
      [("config", .option .config), ("log-level", .option .logLevel), ("module", .option .module),
        ("base", .option .base), ("save", .option .save), ("locale", .option .locale),
        ("format", .option .format), ("help", .help)]

/-- The single letters of switches in a place. -/
def letters : Place → List (Char × Switch)
  | .front => [('c', .option .config), ('h', .help), ('V', .version)]
  | .behind =>
      [('c', .option .config), ('m', .option .module), ('l', .option .locale), ('h', .help)]

/-- An argument taken apart. -/
inductive Argument where
  /-- A switch, perhaps with a value attached to it. -/
  | switch (switch : Switch) (value : Option Text)
  /-- Two dashes and nothing else. -/
  | dashes
  /-- Any other text without a dash in front. -/
  | plain (text : Text)
  /-- A text with a dash in front that is no switch. -/
  | unknown
  deriving DecidableEq

/-- The argument that a long name and a value behind an equals sign give. -/
def longArgument (place : Place) (text : Text) : Argument :=
  let name := text.takeWhile (· ≠ '=')
  let value :=
    match text.dropWhile (· ≠ '=') with
    | [] => none
    | _ :: value => some value
  match (longNames place).find? fun known => known.1.toList = name with
  | none => .unknown
  | some (_, switch) => .switch switch value

/--
The argument that a letter and whatever is attached to it give.  A question is answered at once,
whatever is attached to it.
-/
def letterArgument (place : Place) (letter : Char) (attached : Text) : Argument :=
  let value :=
    match attached with
    | [] => none
    | '=' :: value => some value
    | value => some value
  match Dictionary.lookup letter (letters place) with
  | none => .unknown
  | some (.option subject) => .switch (.option subject) value
  | some question => .switch question none

/-- An argument in a place, taken apart. -/
def argument (place : Place) : Text → Argument
  | ['-', '-'] => .dashes
  | '-' :: '-' :: text => longArgument place text
  | '-' :: letter :: attached => letterArgument place letter attached
  | text => .plain text

/-- The next argument can be the value of an option unless a dash begins it; one dash alone can. -/
def canBeValue : Text → Bool
  | '-' :: _ :: _ => false
  | _ => true

/-- The values that options were given. -/
abbrev Values : Type :=
  List (Subject × Text)

/-- One more value, unless there is one already or it is empty where it must not be. -/
def addValue? (values : Values) (subject : Subject) (value : Text) : Option Values :=
  if (Dictionary.lookup subject values).isSome ∨ (subject.isPath ∧ value = []) then
    none
  else
    some (values ++ [(subject, value)])

/-- What the arguments ask for. -/
inductive Request where
  /-- How the program is used. -/
  | help
  /-- Which version it is. -/
  | version
  /-- A collection, with the values in front of the command and behind it. -/
  | collect (front behind : Values)
  deriving DecidableEq

/-- The request that the arguments behind the command make. -/
def behindCommand? (front : Values) (values : Values) : List Text → Option Request
  | [] => some (.collect front values)
  | text :: rest =>
      match argument .behind text with
      | .switch .help none => some .help
      | .switch (.option subject) (some value) =>
          (addValue? values subject value).bind fun values => behindCommand? front values rest
      | .switch (.option subject) none =>
          match rest with
          | [] => none
          | value :: rest =>
              if canBeValue value then
                (addValue? values subject value).bind fun values =>
                  behindCommand? front values rest
              else
                none
      | .dashes => if rest = [] then some (.collect front values) else none
      | _ => none

/-- The arguments behind the word `help` name commands. -/
def isHelpTopic (topics : List Text) : Bool :=
  topics = [] || topics = ["collect".toList] || topics = ["help".toList]

/-- The request that arguments make, with the values of options read so far. -/
def request? (values : Values) : List Text → Option Request
  | [] => none
  | text :: rest =>
      match argument .front text with
      | .switch .help none => some .help
      | .switch .version none => some .version
      | .switch (.option subject) (some value) =>
          (addValue? values subject value).bind fun values => request? values rest
      | .switch (.option subject) none =>
          match rest with
          | [] => none
          | value :: rest =>
              if canBeValue value then
                (addValue? values subject value).bind fun values => request? values rest
              else
                none
      | .plain text =>
          if text = "collect".toList then
            behindCommand? values [] rest
          else if text = "help".toList ∧ isHelpTopic rest then
            some .help
          else
            none
      | _ => none

/-- What the program leaves behind. -/
structure Execution where
  /-- The disk afterwards. -/
  disk : Disk
  /-- The exit code: 0 if all went well, 1 after a failure, 2 after arguments not understood. -/
  exitCode : Nat
  /-- What was written to the standard output. -/
  output : Text := []
  /-- What was written to the standard error stream. -/
  complaint : Text := []

/-- How the program is used. -/
def usage : Text :=
  "Usage: text-collector [OPTIONS] collect [OPTIONS]\n".toList

/-- The name and version of the program. -/
def version : Text :=
  "text-collector 0.3.0\n".toList

/-- The value of a subject. -/
def value? (values : Values) (subject : Subject) : Option Text :=
  Dictionary.lookup subject values

/-- The value of a subject behind the command, or else in front of it. -/
def eitherValue? (front behind : Values) (subject : Subject) : Option Text :=
  (value? behind subject).or (value? front subject)

/-- The settings with the values from the command line. -/
def override (settings : Settings) (front behind : Values) : Except Failure Settings := do
  let given := value? behind
  let format ←
    match given .format with
    | none => .ok settings.format
    | some text =>
        match Table.Format.parse? text with
        | none => .error (.unknownFormat text)
        | some format => .ok format
  return { settings with
    logLevel := (eitherValue? front behind .logLevel).getD settings.logLevel
    base := ((given .base).map Path.ofText).getD settings.base
    save := ((given .save).map Path.ofText).or settings.save
    locale := (given .locale).getD settings.locale
    format }

/-- The settings for a collection and the level of its log. -/
def prepare (disk : Disk) (front behind : Values) : Except Failure (Settings × Log.Level) := do
  let config := (eitherValue? front behind .config).map Path.ofText
  let settings ← (Settings.loadOrDefault disk config).mapError .settings
  let settings ← override settings front behind
  let settings ← settings.validated.mapError .settings
  let level ← settings.level.mapError .settings
  return (settings, level)

/-- A cause of a failure on a line of its own; lines within it are indented alike. -/
def causeLines (heading indent : Text) (cause : Text) : Text :=
  '\n' :: heading ++ cause.flatMap fun char => if char = '\n' then '\n' :: indent else [char]

/-- The causes of a failure, numbered if there are several. -/
def causes : List Text → Text
  | [] => []
  | [cause] => "\n\nCaused by:".toList ++ causeLines "    ".toList "    ".toList cause
  | several =>
      "\n\nCaused by:".toList ++
        several.zipIdx.flatMap fun (cause, number) =>
          causeLines (Text.padLeft 5 (Text.ofNat number) ++ ": ".toList)
            (List.replicate 7 ' ') cause

/-- The report on a failure. -/
def report (failure : Failure) : Text :=
  let sentences := failure.sentences
  "Error: ".toList ++ sentences.headD [] ++ causes sentences.tail ++ ['\n']

/-- The collection that the command line asks for. -/
def collect (disk : Disk) (front behind : Values) : Execution :=
  match prepare disk front behind with
  | .error failure => { disk, exitCode := 1, complaint := report failure }
  | .ok (settings, level) =>
      let summary := Summary.collect settings disk (value? behind .module)
      let output := Log.output level summary.lines
      let complaint := Log.complaints level summary.lines
      match summary.result with
      | .ok () => { disk := summary.disk, exitCode := 0, output, complaint }
      | .error failure =>
          { disk := summary.disk, exitCode := 1, output, complaint := complaint ++ report failure }

/-- What the program does on a disk when it is given arguments. -/
def execute (disk : Disk) (arguments : List Text) : Execution :=
  match request? [] arguments with
  | none => { disk, exitCode := 2, complaint := usage }
  | some .help => { disk, exitCode := 0, output := usage }
  | some .version => { disk, exitCode := 0, output := version }
  | some (.collect front behind) => collect disk front behind

end CommandLine
end Phrasebook
