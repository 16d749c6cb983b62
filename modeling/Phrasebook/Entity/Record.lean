import Phrasebook.Text.Basic

/-!
# Entity records

A record is a translatable value with a hint for its ordering and a note for translators.  The
value is kept the way it stands between single quotes.
-/

namespace Phrasebook
namespace Entity

/-- What is known about an entity besides its key. -/
structure Record where
  /-- The body of a single-quoted literal. -/
  value : Text
  /-- The token that ranks the entity. -/
  priority : Option Text := none
  /-- The note for translators. -/
  comment : Option Text := none
  deriving DecidableEq

namespace Record

/-- A missing text comes before every text that is there. -/
def compareOptional : Option Text → Option Text → Ordering
  | none, none => .eq
  | none, some _ => .lt
  | some _, none => .gt
  | some first, some second => compareOfLessAndEq first second

/-- Records are ordered by value, then by priority, then by comment. -/
def compare (first second : Record) : Ordering :=
  (compareOfLessAndEq first.value second.value).then
    ((compareOptional first.priority second.priority).then
      (compareOptional first.comment second.comment))

end Record
end Entity
end Phrasebook
