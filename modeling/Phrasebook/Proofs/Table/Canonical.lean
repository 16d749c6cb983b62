import Phrasebook.Proofs.Entity.History
import Phrasebook.Proofs.Table.Composing

/-!
# Canonical tables

The entries of a map are at hand in the order of a hash table, which is another one each time.  They
are sorted before anything is composed of them, and the same entries have one order only.  So a
table is the same text, and reports the same keys, for all maps that answer alike.
-/

namespace Phrasebook
namespace Table

open Entity (History inOrder Precedes Record)

variable {history other : History} {table otherTable : List (Text × Record)}

/-- Tables with the same answers hold the same map. -/
theorem map_eq_of_lookup_eq
    (left : history.Leaves table)
    (otherLeft : other.Leaves otherTable)
    (same : ∀ key, Dictionary.lookup key table = Dictionary.lookup key otherTable) :
    history.map = other.map := by
  apply Dictionary.ext_get?
  intro key
  rw [← left.lookup_eq, same, otherLeft.lookup_eq]

theorem compose_inOrder
    (left : history.Leaves table)
    (format : Format)
    (locale : Text) :
    compose format locale (inOrder table) =
      (render format locale history.map, skipped history.map) := by
  rw [left.inOrder_eq, compose_sorted]

/-- What is made of a table of entries depends on nothing but its answers. -/
structure Canonical (history : History) (table : List (Text × Record)) : Prop where
  /-- The table may give out its entries in any other order. -/
  free : ∀ arranged : List (Text × Record), arranged.Perm table → history.Leaves arranged
  /-- The sorted entries are the entries of the table. -/
  perm : (inOrder table).Perm table
  /-- Each of them comes before all that follow. -/
  increasing : (inOrder table).Pairwise Precedes
  /-- They are the sorted entries of the map. -/
  sorted : inOrder table = history.map.sorted
  /-- What is composed of them is the rendered map, in both formats. -/
  composed : ∀ format locale,
    compose format locale (inOrder table) =
      (render format locale history.map, skipped history.map)
  /-- Another table that answers alike has the same sorted entries, however it was built. -/
  sameOrder : ∀ (other : History) (otherTable : List (Text × Record)),
    other.Leaves otherTable →
    (∀ key, Dictionary.lookup key table = Dictionary.lookup key otherTable) →
    inOrder table = inOrder otherTable
  /-- The same text is composed of it, and the same keys are reported. -/
  sameText : ∀ (other : History) (otherTable : List (Text × Record)),
    other.Leaves otherTable →
    (∀ key, Dictionary.lookup key table = Dictionary.lookup key otherTable) →
    ∀ format locale,
      compose format locale (inOrder table) = compose format locale (inOrder otherTable)

theorem canonical_of_leaves (left : history.Leaves table) : Canonical history table where
  free := fun _ perm => History.leaves_iff_perm.mpr (perm.trans left.perm)
  perm := Entity.perm_inOrder table
  increasing := Entity.pairwise_inOrder left.nodup
  sorted := left.inOrder_eq
  composed := compose_inOrder left
  sameOrder := by
    intro other otherTable otherLeft same
    rw [left.inOrder_eq, otherLeft.inOrder_eq, map_eq_of_lookup_eq left otherLeft same]
  sameText := by
    intro other otherTable otherLeft same format locale
    rw [compose_inOrder left, compose_inOrder otherLeft, map_eq_of_lookup_eq left otherLeft same]

/-- One key is overwritten by a merge, and the table gives out its entries back to front. -/
theorem canonical_of_merged :
    let save : Record := ⟨"Save".toList, none, none⟩
    let store : Record := ⟨"Store".toList, some "HIGH".toList, none⟩
    let before := History.insert (.insert .empty ("A.x".toList, save)) ("A.y".toList, save)
    let incoming := History.ofList [("B.z".toList, save), ("A.x".toList, store)]
    let table := [("A.y".toList, save), ("B.z".toList, save), ("A.x".toList, store)]
    (History.merge before incoming).Leaves table ∧
      Canonical (History.merge before incoming) table := by
  intro save store before incoming table
  have inserted : before.Leaves [("A.x".toList, save), ("A.y".toList, save)] :=
    .insert (.insert .empty (.refl _)) (by decide)
  have given : incoming.Leaves [("A.x".toList, store), ("B.z".toList, save)] :=
    .ofList (by decide)
  have left : (History.merge before incoming).Leaves table :=
    .merge inserted given (by decide)
  exact ⟨left, canonical_of_leaves left⟩

end Table
end Phrasebook
