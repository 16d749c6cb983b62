import Phrasebook.Disk.Error
import Phrasebook.Entity.Map
import Phrasebook.Entity.Normal

/-!
# Harvests

What one text yields: the entities of its call sites, the number of times that a later call site
overwrote an earlier one, and warnings about what had to be left out.  Harvests are added up in the
order in which their texts are read, and the later one wins.
-/

namespace Phrasebook

/-- What had to be left out of a harvest. -/
inductive Warning where
  /-- A call site is no entity. -/
  | skipped (cause : Entity.Error)
  /-- No file belongs to the name in an include directive. -/
  | unresolved (name : Text)
  /-- A template includes itself, perhaps by way of others. -/
  | cycle (name : Text) (path : Path)
  /-- An included file cannot be read. -/
  | unreadable (path : Path) (cause : Disk.Error)
  deriving DecidableEq

/-- The sentence that reports a warning. -/
def Warning.message : Warning → Text
  | skipped cause => "Skipped ".toList ++ cause.message
  | unresolved name => "Include '".toList ++ name ++ "' could not be resolved".toList
  | cycle name path =>
      "Include cycle through '".toList ++ name ++ "' (".toList ++ path.display ++
        "), skipped".toList
  | unreadable path cause =>
      "Failed to read include ".toList ++ path.display ++ ": ".toList ++ cause.headline

/-- What one text yields. -/
structure Harvest where
  /-- The entities that were found. -/
  entities : Entity.Map := Dictionary.empty
  /-- How often a different record was replaced. -/
  overwritten : Nat := 0
  /-- What was left out, in the order of the text. -/
  warnings : List Warning := []
  deriving DecidableEq

namespace Harvest

/-- The harvest with one more warning. -/
def warn (harvest : Harvest) (warning : Warning) : Harvest :=
  { harvest with warnings := harvest.warnings ++ [warning] }

/-- The harvest with one more entity, which wins. -/
def insert (harvest : Harvest) (key : Text) (record : Entity.Record) : Harvest :=
  let updated := Entity.Map.put (harvest.entities, harvest.overwritten) (key, record)
  { harvest with entities := updated.1, overwritten := updated.2 }

/-- The harvest with a later one, which wins. -/
def absorb (harvest later : Harvest) : Harvest :=
  let merged := harvest.entities.merge later.entities
  { entities := merged.1
    overwritten := harvest.overwritten + later.overwritten + merged.2
    warnings := harvest.warnings ++ later.warnings }

/-- The harvest with one more call site. -/
def addCallSite (fallback : Option Text) (harvest : Harvest) (site : CallSite) : Harvest :=
  match Entity.ofCallSite fallback site with
  | .ok (key, record) => harvest.insert key.text record
  | .error cause => harvest.warn (.skipped cause)

/-- The harvest of the call sites of a function in a text, with a namespace for bare keys. -/
def ofText (function : Text) (fallback : Option Text) (text : Text) : Harvest :=
  (CallSite.scan function text).foldl
    (fun harvest occurrence => harvest.addCallSite fallback occurrence.site) {}

end Harvest
end Phrasebook
