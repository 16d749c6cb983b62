import Phrasebook.Text.Blank

/-!
# The log

A program reports what it does line by line.  Each line of the log has a level, and only lines up
to the active level are shown: information on the standard output, everything else, with its level
in front, on the standard error stream.  Lines that are the program's result are always shown.
-/

namespace Phrasebook
namespace Log

/-- How grave a line is, from the gravest level on. -/
inductive Level where
  /-- Something could not be done. -/
  | error
  /-- Something was left out. -/
  | warn
  /-- Something was done. -/
  | info
  /-- Something may interest those who look for a fault. -/
  | debug
  deriving DecidableEq

namespace Level

/-- The name of a level. -/
def name : Level → Text
  | error => "error".toList
  | warn => "warn".toList
  | info => "info".toList
  | debug => "debug".toList

/-- The rank of a level, from one for the gravest. -/
def number : Level → Nat
  | error => 1
  | warn => 2
  | info => 3
  | debug => 4

/-- The level that a text names, in small or capital letters and with blanks around. -/
def parse? (text : Text) : Option Level :=
  let word := (Text.trim text).toLower
  if word = "error".toList then some error
  else if word = "warn".toList ∨ word = "warning".toList then some warn
  else if word = "info".toList then some info
  else if word = "debug".toList then some debug
  else none

/-- Lines of this level are shown while the active level is the given one. -/
def isShown (level active : Level) : Bool :=
  level.number ≤ active.number

/-- A level is named by its name. -/
@[simp]
theorem parse?_name (level : Level) : parse? level.name = some level := by
  cases level <;> rfl

end Level

/-- The report that a text names no level. -/
def unknownLevel (text : Text) : Text :=
  "Unknown log level: ".toList ++ text ++ " (expected error, warn, info or debug)".toList

/-- A line that a program reports. -/
inductive Line where
  /-- A line of the log. -/
  | note (level : Level) (message : Text)
  /-- A line of the result. -/
  | result (message : Text)
  /-- A line about the failure of the result. -/
  | failure (message : Text)
  deriving DecidableEq

/-- What stands in front of the lines of a level. -/
def Level.heading : Level → Text
  | error => "ERROR: ".toList
  | warn => "Warning: ".toList
  | info => []
  | debug => "DEBUG: ".toList

/-- What a line adds to the standard output. -/
def Line.output (active : Level) : Line → Text
  | note .info message => if Level.isShown .info active then message ++ ['\n'] else []
  | note _ _ => []
  | result message => message ++ ['\n']
  | failure _ => []

/-- What a line adds to the standard error stream. -/
def Line.complaint (active : Level) : Line → Text
  | note .info _ => []
  | note level message =>
      if level.isShown active then level.heading ++ message ++ ['\n'] else []
  | result _ => []
  | failure message => message ++ ['\n']

/-- What lines write to the standard output. -/
def output (active : Level) (lines : List Line) : Text :=
  lines.flatMap (Line.output active)

/-- What lines write to the standard error stream. -/
def complaints (active : Level) (lines : List Line) : Text :=
  lines.flatMap (Line.complaint active)

/-- A line about something that could not be done. -/
def error (message : Text) : Line :=
  .note .error message

/-- A line about something that was left out. -/
def warn (message : Text) : Line :=
  .note .warn message

/-- A line about something that was done. -/
def info (message : Text) : Line :=
  .note .info message

/-- A line for those who look for a fault. -/
def debug (message : Text) : Line :=
  .note .debug message

end Log
end Phrasebook
