import Phrasebook.Entity.Map
import Phrasebook.Text.Visible

/-!
# Declared entities

Some entities are not found in any text but declared up front, map by map, each for a module.  The
maps of a module are merged in the order in which they were declared, and later ones win.
-/

namespace Phrasebook

/-- Maps of declared entities with the modules that they belong to, in order. -/
structure Declared where
  /-- Modules and maps. -/
  declarations : List (Text × Entity.Map) := []
  deriving DecidableEq

namespace Declared

/-- One more map is declared for a module. -/
def declare (declared : Declared) (module : Text) (entities : Entity.Map) : Declared :=
  ⟨declared.declarations ++ [(module, entities)]⟩

/-- Nothing is declared for any module. -/
def isEmpty (declared : Declared) : Bool :=
  declared.declarations.isEmpty

/-- The maps of a module. -/
def mapsOf (declared : Declared) (module : Text) : List Entity.Map :=
  (declared.declarations.filter fun declaration => declaration.1 = module).map Prod.snd

/-- Maps are merged into a map, and the overwritings are counted. -/
def mergeAll (start : Entity.Map × Nat) (maps : List Entity.Map) : Entity.Map × Nat :=
  maps.foldl
    (fun state entities =>
      let merged := state.1.merge entities
      (merged.1, state.2 + merged.2))
    start

/-- The entities of a module, and how often a later map overwrote an earlier one. -/
def collect (declared : Declared) (module : Text) : Entity.Map × Nat :=
  mergeAll (Dictionary.empty, 0) (declared.mapsOf module)

/-- The modules that something is declared for, each once, in order. -/
def modules (declared : Declared) : List Text :=
  (declared.declarations.map Prod.fst).eraseDups

/-- A summary: each module with the number of its maps. -/
def summary (declared : Declared) : Text :=
  let count (module : Text) : Text :=
    Text.display module ++ ": ".toList ++ Text.ofNat (declared.mapsOf module).length
  "StaticsRegistry \x7b providers: \x7b".toList ++
    Text.joinWith ", ".toList (declared.modules.map count) ++ "\x7d \x7d".toList

end Declared
end Phrasebook
