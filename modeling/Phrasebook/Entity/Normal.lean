import Phrasebook.CallSite
import Phrasebook.Entity.Key
import Phrasebook.Entity.Record

/-!
# From call sites to entities

The literals of a call site lose their quotes, and the key gets its namespace.  A value is kept as
the body of a single-quoted literal: a single-quoted one is one already, and in a double-quoted one
the single quotes are escaped.  A priority loses its comma, its line breaks and the blanks around
it; nothing is left of a blank one.
-/

namespace Phrasebook

open Text

namespace Entity

/-- A priority without its comma, line breaks and outer blanks; none if that is empty. -/
def normalPriority? (raw : Text) : Option Text :=
  let token :=
    match trimStart raw with
    | ',' :: rest => rest
    | token => token
  match trim (token.filter fun char => char ≠ '\n' && char ≠ '\x0d') with
  | [] => none
  | token => some token

/-- The body of a single-quoted literal with the same meaning as a literal of either quote. -/
def normalValue (literal : Text) : Text :=
  match unquote literal with
  | (body, some '\x22') => escapeQuotes body
  | (body, _) => body

/-- The record of a call site. -/
def recordOf (site : CallSite) : Record where
  value := normalValue site.value
  priority := site.priority.bind normalPriority?
  comment := site.comment.map fun literal => (unquote literal).1

/-- The entity of a call site; the fallback is the namespace of keys that name none. -/
def ofCallSite (fallback : Option Text) (site : CallSite) : Except Error (Key × Record) :=
  (Key.resolve (unquote site.key).1 fallback).map fun key => (key, recordOf site)

end Entity
end Phrasebook
