import Phrasebook.Entity.Key
import Phrasebook.Entity.Map

/-!
# Listings

A master table lists the entities of a map in the order of their records.  A full key that cannot
be split into namespace and name has no place in a table; such keys are left out and reported.
-/

namespace Phrasebook
namespace Table

/-- The entities that have a place in a table, in order. -/
def listed (entities : Entity.Map) : List (Entity.Key × Entity.Record) :=
  entities.sorted.filterMap fun (full, record) =>
    (Entity.Key.parse? full).map fun key => (key, record)

/-- The full keys that have no place in a table, in the order of their records. -/
def unlisted (entities : Entity.Map) : List Text :=
  (entities.sorted.filter fun (full, _) => (Entity.Key.parse? full).isNone).map Prod.fst

/-- The reports on the entities that are left out. -/
def skipped (entities : Entity.Map) : List Entity.Error :=
  (unlisted entities).map .missingNamespace

end Table
end Phrasebook
