import Phrasebook.Proofs.Table.Meaning
import Phrasebook.Proofs.Table.Storing

/-!
# Entries of tables

A table of statements has one statement for each entity of its listing, one after the other, and
each of them begins with the key that it is about.  A document has one member for each of them, but
groups them by namespace, so they come in another order.  Either way a table has exactly the
entities whose keys can be split, and it is their number that is told of a table that was written.
-/

namespace Phrasebook
namespace Table

open Document
open Text (quoted)

/-! ## Statements -/

namespace Statements

/--
A text is a table of statements, one for each entity of a listing and in its order.  They may hold
any text, so the reader can only be sure to find them where the quotes are in their places.
-/
structure Holds
    (locale text : Text)
    (listing : List (Entity.Key × Entity.Record)) : Prop where
  /-- Between the first lines and the last ones there are the statements. -/
  whole : text =
    header ++ (listing.flatMap fun entity => statement locale entity.1 entity.2) ++ footer
  /-- A statement names the locale, the namespace and the name, and the literal of the value comes
  next, on its own or in an array. -/
  begun : ∀ entity ∈ listing, ∃ behind, statement locale entity.1 entity.2 =
    "$lang['".toList ++ locale ++ "']['".toList ++ entity.1.space ++ "']['".toList ++
      entity.1.name ++ "'] = ".toList ++ lead entity.2 ++ quoted '\x27' entity.2.value ++ behind ++
      ";\n".toList
  /-- The reader finds these statements and no others, if nothing keeps them from being told. -/
  found : '\x27' ∉ locale →
    (∀ entity ∈ listing, Legible entity.1.text entity.2 ∧
      ∀ priority, entity.2.priority = some priority → PlainPriority priority) →
    entries text =
      listing.map fun entity => ⟨locale, entity.1.space, entity.1.name, entity.2⟩

/-- Every statement begins with its key. -/
theorem exists_statement_eq
    (locale : Text)
    (key : Entity.Key)
    (record : Entity.Record) :
    ∃ behind, statement locale key record =
      "$lang['".toList ++ locale ++ "']['".toList ++ key.space ++ "']['".toList ++ key.name ++
        "'] = ".toList ++ lead record ++ quoted '\x27' record.value ++ behind ++ ";\n".toList := by
  obtain ⟨behind, written⟩ := exists_statement_eq_append locale key record
  refine ⟨behind, written.trans ?_⟩
  unfold assignment index
  simp [List.append_assoc]

theorem holds_render (locale : Text) (entities : Entity.Map) :
    Holds locale (render locale entities) (listed entities) where
  whole := rfl
  begun := fun entity _ => exists_statement_eq locale entity.1 entity.2
  found := fun localePlain plain => by
    rw [render, List.append_assoc, entries_header, entries_statements localePlain plain]

end Statements

/-! ## Documents -/

namespace Document

/-- The keys of the members of all namespaces. -/
def keysOf (spaces : List (Text × List (Text × Json))) : List Entity.Key :=
  spaces.flatMap fun space => space.2.map fun member => ⟨space.1, member.1⟩

theorem nodup_keysOf
    {spaces : List (Text × List (Text × Json))}
    (distinct : Distinct spaces) :
    (keysOf spaces).Nodup := by
  rw [keysOf, List.nodup_flatMap]
  constructor
  · rintro ⟨space, names⟩ member
    have keys := (distinct.inner space names member).map (f := Entity.Key.mk space)
      fun first second same => (Entity.Key.mk.inj same).2
    rwa [List.map_map] at keys
  · have apart := List.pairwise_map.mp (List.nodup_iff_pairwise_ne.mp distinct.outer)
    refine apart.imp fun different key member other => different ?_
    obtain ⟨_, -, rfl⟩ := List.mem_map.mp member
    obtain ⟨_, -, same⟩ := List.mem_map.mp other
    exact (Entity.Key.mk.inj same).1.symm

/-- A document has the keys of the listing, in the order of the groups. -/
theorem perm_keysOf_grouped (entities : Entity.Map) :
    (keysOf (grouped entities)).Perm ((listed entities).map Prod.fst) := by
  rw [List.perm_ext_iff_of_nodup (nodup_keysOf (distinct_grouped entities))
    (nodup_keys_listed entities)]
  rintro ⟨space, name⟩
  constructor
  · intro member
    obtain ⟨⟨_, names⟩, grouping, inside⟩ := List.mem_flatMap.mp member
    obtain ⟨⟨_, value⟩, named, same⟩ := List.mem_map.mp inside
    obtain ⟨rfl, rfl⟩ := Entity.Key.mk.inj same
    obtain ⟨record, source, -⟩ := mem_grouped.mp ⟨names, grouping, named⟩
    exact List.mem_map_of_mem source
  · intro member
    obtain ⟨⟨_, record⟩, source, rfl⟩ := List.mem_map.mp member
    obtain ⟨names, grouping, named⟩ := mem_grouped.mpr ⟨record, source, rfl⟩
    exact List.mem_flatMap.mpr ⟨_, grouping, List.mem_map_of_mem named⟩

end Document

/-! ## Tables in either format -/

/-- A text is a table with entries under some keys, one for each. -/
def HasEntries (format : Format) (locale text : Text) (keys : List Entity.Key) : Prop :=
  match format with
  | .php => ∃ listing, Statements.Holds locale text listing ∧ listing.map Prod.fst = keys
  | .json =>
      ∃ spaces : List (Text × List (Text × Json)),
        Json.read? text =
            some (.object
              [(locale, .object (spaces.map fun space => (space.1, .object space.2)))]) ∧
          (keysOf spaces).Perm keys

/-- A table has an entry for each entity of the listing. -/
theorem hasEntries_render
    (format : Format)
    (locale : Text)
    (entities : Entity.Map) :
    HasEntries format locale (render format locale entities) ((listed entities).map Prod.fst) := by
  cases format with
  | php => exact ⟨listed entities, Statements.holds_render locale entities, rfl⟩
  | json => exact ⟨grouped entities, read?_render locale entities, perm_keysOf_grouped entities⟩

/-- The keys of a listing are those of the map that can be split. -/
theorem mem_keys_listed
    {entities : Entity.Map}
    {key : Entity.Key} :
    key ∈ (listed entities).map Prod.fst ↔
      Entity.Key.parse? key.text = some key ∧ ∃ record, entities.get? key.text = some record := by
  simp [mem_listed]

theorem entries_writtenAt (path : Path) (entities : Entity.Map) :
    (writtenAt path entities).entries = (listed entities).length := by
  rw [writtenAt, ← length_listed_add_length_skipped, Nat.add_sub_cancel]

end Table
end Phrasebook
