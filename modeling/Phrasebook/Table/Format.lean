import Phrasebook.Text.Blank

/-!
# Formats of master tables

A master table is written either as a sequence of PHP statements or as a JSON document.
-/

namespace Phrasebook
namespace Table

/-- How a master table is written. -/
inductive Format where
  /-- A sequence of PHP statements. -/
  | php
  /-- A JSON document. -/
  | json
  deriving DecidableEq

namespace Format

/-- The name of a format. -/
def name : Format → Text
  | php => "Php".toList
  | json => "Json".toList

/-- The suffix of files in this format. -/
def extension : Format → Text
  | php => "php".toList
  | json => "json".toList

/-- The format of a suffix. -/
def ofExtension? (text : Text) : Option Format :=
  if text = "php".toList then some php
  else if text = "json".toList then some json
  else none

/-- The format that a text names, in small or capital letters and with blanks around. -/
def parse? (text : Text) : Option Format :=
  ofExtension? (Text.trim text).toLower

/-- Every format is named by its suffix. -/
@[simp]
theorem ofExtension?_extension (format : Format) : ofExtension? format.extension = some format := by
  cases format <;> rfl

end Format
end Table
end Phrasebook
