import Mathlib.Data.List.Nodup
import Phrasebook.Proofs.Dictionary
import Phrasebook.Table.Listing

/-!
# What a listing holds

A listing holds the entities of a map whose full keys can be split, each of them once, and nothing
else.  They make up the part of the map that has a place in a table.
-/

namespace Phrasebook
namespace Table

theorem mem_sorted
    {entities : Entity.Map}
    {entry : Text × Entity.Record} :
    entry ∈ entities.sorted ↔ entry ∈ entities.entries := by
  rw [Entity.Map.sorted, List.mem_mergeSort]

theorem mem_listed
    {entities : Entity.Map}
    {key : Entity.Key}
    {record : Entity.Record} :
    (key, record) ∈ listed entities ↔
      Entity.Key.parse? key.text = some key ∧ entities.get? key.text = some record := by
  simp only [listed, List.mem_filterMap, mem_sorted, Prod.exists, Option.map_eq_some_iff,
    Prod.mk.injEq, Dictionary.get?_eq_some_iff]
  constructor
  · rintro ⟨full, found, member, parsed, split, rfl, rfl⟩
    rw [Entity.Key.text_of_parse? split]
    exact ⟨split, member⟩
  · rintro ⟨split, member⟩
    exact ⟨key.text, record, member, key, split, rfl, rfl⟩

/-- The part of a map that has a place in a table. -/
def placed (entities : Entity.Map) : Entity.Map :=
  entities.filter fun full => (Entity.Key.parse? full).isSome

theorem mem_placed
    {entities : Entity.Map}
    {entry : Text × Entity.Record} :
    entry ∈ (placed entities).entries ↔
      (Entity.Key.parse? entry.1).isSome ∧ entities.get? entry.1 = some entry.2 := by
  rw [Dictionary.get?_eq_some_iff, placed, Dictionary.filter, List.mem_filter, and_comm]

theorem placed_eq_self
    {entities : Entity.Map}
    (split : ∀ entry ∈ entities.entries, (Entity.Key.parse? entry.1).isSome) :
    placed entities = entities := by
  apply Dictionary.ext
  rw [placed, Dictionary.filter, List.filter_eq_self]
  exact split

/-- What is listed, with its keys written out, is what has a place. -/
theorem mem_map_listed
    {entities : Entity.Map}
    {entry : Text × Entity.Record} :
    entry ∈ (listed entities).map (fun entry => (entry.1.text, entry.2)) ↔
      entry ∈ (placed entities).entries := by
  obtain ⟨full, record⟩ := entry
  simp only [List.mem_map, Prod.exists, Prod.mk.injEq, mem_listed, mem_placed]
  constructor
  · rintro ⟨key, _, ⟨split, present⟩, rfl, rfl⟩
    exact ⟨Option.isSome_iff_exists.mpr ⟨key, split⟩, present⟩
  · rintro ⟨split, present⟩
    obtain ⟨key, split⟩ := Option.isSome_iff_exists.mp split
    obtain rfl := Entity.Key.text_of_parse? split
    exact ⟨key, record, ⟨split, present⟩, rfl, rfl⟩

/-- Nothing is left out when every key can be split. -/
theorem skipped_eq_nil
    {entities : Entity.Map}
    (split : ∀ entry ∈ entities.entries, (Entity.Key.parse? entry.1).isSome) :
    skipped entities = [] := by
  rw [skipped, List.map_eq_nil_iff, unlisted, List.map_eq_nil_iff, List.filter_eq_nil_iff]
  intro entry member
  have present := split entry (mem_sorted.mp member)
  simpa [Option.isSome_iff_ne_none] using present

/-- What is left out of a listing are the keys of the map that cannot be split. -/
theorem mem_unlisted
    {entities : Entity.Map}
    {full : Text} :
    full ∈ unlisted entities ↔
      Entity.Key.parse? full = none ∧ ∃ record, entities.get? full = some record := by
  simp only [unlisted, List.mem_map, List.mem_filter, mem_sorted, Prod.exists,
    Dictionary.get?_eq_some_iff, Option.isNone_iff_eq_none]
  constructor
  · rintro ⟨_, record, ⟨member, split⟩, rfl⟩
    exact ⟨split, record, member⟩
  · rintro ⟨split, record, member⟩
    exact ⟨full, record, ⟨member, split⟩, rfl⟩

/-! ## How much is listed -/

/-- Every entity is listed or left out. -/
theorem length_listed_add_length_skipped (entities : Entity.Map) :
    (listed entities).length + (skipped entities).length = entities.size := by
  let splits (entry : Text × Entity.Record) : Bool := (Entity.Key.parse? entry.1).isSome
  have kept : (listed entities).length = entities.sorted.countP splits := by
    rw [listed, List.length_filterMap_eq_countP]
    exact List.countP_congr fun entry _ => by simp [splits]
  have dropped : (skipped entities).length = entities.sorted.countP (!splits ·) := by
    rw [skipped, List.length_map, unlisted, List.length_map, List.countP_eq_length_filter]
    simp [splits]
  have size : entities.sorted.length = entities.size := List.length_mergeSort _
  rw [kept, dropped, ← size, List.length_eq_countP_add_countP splits]
  simp

/-- The keys of a listing come in the order of the full keys that they are parts of. -/
theorem sublist_keys_listed (entities : Entity.Map) :
    ((listed entities).map fun entry => entry.1.text).Sublist
      (entities.sorted.map Prod.fst) := by
  unfold listed
  induction entities.sorted with
  | nil => exact .slnil
  | cons entry entries ih =>
      obtain ⟨full, record⟩ := entry
      cases split : Entity.Key.parse? full with
      | none => simpa [split] using ih.cons full
      | some key => simpa [split, Entity.Key.text_of_parse? split] using ih

/-- No key is listed twice. -/
theorem nodup_keys_listed (entities : Entity.Map) : ((listed entities).map Prod.fst).Nodup := by
  have sorted : (entities.sorted.map Prod.fst).Nodup :=
    ((List.mergeSort_perm entities.entries _).map Prod.fst).nodup_iff.mpr
      (Dictionary.nodup_keys entities)
  have texts := (sublist_keys_listed entities).nodup sorted
  rw [← Function.comp_def, ← List.map_map] at texts
  exact List.Nodup.of_map _ texts

end Table
end Phrasebook
