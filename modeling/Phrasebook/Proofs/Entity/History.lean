import Phrasebook.Proofs.Entity.Merging
import Phrasebook.Proofs.Entity.Order

/-!
# Maps in hash tables

A hash table holds the entries of a map in an order of its own.  The order may be another one after
each entry that comes in, and a merge takes the incoming entries in the order of their table.  None
of this shows in the map: in whatever way a map was built, its table holds the entries of the map,
possibly in any order.  Put in their own order they are the same for all tables of the map.
-/

namespace Phrasebook
namespace Entity

/-- A way to build a map. -/
inductive History where
  /-- The map without entries. -/
  | empty
  /-- One more entry comes in. -/
  | insert (before : History) (entry : Text × Record)
  /-- All entries of another map come in. -/
  | merge (before incoming : History)
  /-- The entries of a list come in one after the other. -/
  | ofList (entries : List (Text × Record))

/-- A table after an entry has come in; the one with its key is gone. -/
def store (table : List (Text × Record)) (entry : Text × Record) : List (Text × Record) :=
  entry :: table.filter fun other => other.1 ≠ entry.1

namespace History

/-- The map that is built. -/
def map : History → Map
  | empty => Dictionary.empty
  | insert before entry => (Map.put (before.map, 0) entry).1
  | merge before incoming => (before.map.merge incoming.map).1
  | ofList entries => Dictionary.ofList entries

/-- What a table may give out, and in which order, after a map was built in it. -/
inductive Leaves : History → List (Text × Record) → Prop
  /-- A new table holds nothing. -/
  | empty : Leaves empty []
  /-- The table may be rearranged when an entry comes in. -/
  | insert {before : History} {table arranged : List (Text × Record)} {entry : Text × Record}
      (left : Leaves before table)
      (perm : arranged.Perm (store table entry)) :
      Leaves (insert before entry) arranged
  /-- The incoming entries come in as their own table gives them out. -/
  | merge {before incoming : History} {table entries arranged : List (Text × Record)}
      (left : Leaves before table)
      (given : Leaves incoming entries)
      (perm : arranged.Perm (entries.foldl store table)) :
      Leaves (merge before incoming) arranged
  /-- The entries of a list come in as they stand there. -/
  | ofList {entries arranged : List (Text × Record)}
      (perm : arranged.Perm (entries.foldl store [])) :
      Leaves (ofList entries) arranged

end History

variable {map : Map} {history : History} {table : List (Text × Record)}

theorem nodup_entries (map : Map) : map.entries.Nodup :=
  List.Nodup.of_map Prod.fst (Dictionary.nodup_keys map)

theorem perm_store
    (holds : table.Perm map.entries)
    (entry : Text × Record) :
    (store table entry).Perm (map.insert entry.1 entry.2).entries := by
  have fresh : entry ∉ table.filter fun other => other.1 ≠ entry.1 := by simp
  have distinct : (store table entry).Nodup :=
    List.nodup_cons.mpr ⟨fresh, (holds.nodup_iff.mpr (nodup_entries map)).filter _⟩
  rw [List.perm_ext_iff_of_nodup distinct (nodup_entries _)]
  rintro ⟨key, record⟩
  rw [← Dictionary.get?_eq_some_iff, Dictionary.get?_insert, store, List.mem_cons, List.mem_filter,
    holds.mem_iff, ← Dictionary.get?_eq_some_iff]
  by_cases same : key = entry.1
  · simp [same, Prod.ext_iff, eq_comm]
  · simp [same, Prod.ext_iff]

theorem perm_foldl_store
    (holds : table.Perm map.entries)
    (entries : List (Text × Record)) :
    (entries.foldl store table).Perm
      (entries.foldl (fun map entry => map.insert entry.1 entry.2) map).entries := by
  induction entries generalizing table map with
  | nil => exact holds
  | cons entry entries ih => exact ih (perm_store holds entry)

/-- A table holds the entries of the map that was built in it. -/
theorem History.Leaves.perm (left : history.Leaves table) : table.Perm history.map.entries := by
  induction left with
  | empty => exact .refl _
  | @insert before table arranged entry _ perm ih => exact perm.trans (perm_store ih entry)
  | @merge before incoming table entries arranged _ _ perm ih given =>
      have whole := Map.foldl_put_of_perm given before.map
      have built := perm_foldl_store ih entries
      rw [History.map, ← whole, Map.fst_foldl_put]
      exact perm.trans built
  | @ofList entries arranged perm =>
      have nothing : List.Perm [] (Dictionary.empty : Map).entries := .refl _
      exact perm.trans (perm_foldl_store nothing entries)

/-- There is a table for everything that is built. -/
theorem History.exists_leaves (history : History) : ∃ table, history.Leaves table := by
  induction history with
  | empty => exact ⟨[], .empty⟩
  | insert before entry ih =>
      obtain ⟨table, left⟩ := ih
      exact ⟨_, .insert left (.refl _)⟩
  | merge before incoming ih given =>
      obtain ⟨table, left⟩ := ih
      obtain ⟨entries, given⟩ := given
      exact ⟨_, .merge left given (.refl _)⟩
  | ofList entries => exact ⟨_, .ofList (.refl _)⟩

theorem History.Leaves.arrange
    {arranged : List (Text × Record)}
    (left : history.Leaves table)
    (perm : arranged.Perm table) :
    history.Leaves arranged := by
  cases left with
  | empty => exact perm.eq_nil ▸ .empty
  | insert left stored => exact .insert left (perm.trans stored)
  | merge left given stored => exact .merge left given (perm.trans stored)
  | ofList stored => exact .ofList (perm.trans stored)

/-- A table gives out the entries of the map, and may do so in every order. -/
theorem History.leaves_iff_perm :
    history.Leaves table ↔ table.Perm history.map.entries := by
  refine ⟨History.Leaves.perm, fun perm => ?_⟩
  obtain ⟨other, left⟩ := history.exists_leaves
  exact left.arrange (perm.trans left.perm.symm)

theorem History.Leaves.nodup (left : history.Leaves table) : table.Nodup :=
  left.perm.nodup_iff.mpr (nodup_entries history.map)

/-- A table finds what the map holds. -/
theorem History.Leaves.lookup_eq
    (left : history.Leaves table)
    (key : Text) :
    Dictionary.lookup key table = history.map.get? key :=
  Dictionary.lookup_eq_get? (fun _ => left.perm.mem_iff) key

/-- The entries of a table in their order are those of the map. -/
theorem History.Leaves.inOrder_eq (left : history.Leaves table) :
    inOrder table = history.map.sorted := by
  rw [sorted_eq_inOrder]
  exact inOrder_eq_of_perm left.nodup left.perm

end Entity
end Phrasebook
