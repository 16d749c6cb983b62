import Phrasebook.Proofs.Table.Entries
import Phrasebook.Proofs.Table.Grouping
import Phrasebook.Proofs.Table.Meaning

/-!
# Composing tables

A table is composed in one pass over the sorted entries.  An entry whose key can be split is added
to what there is, and every other one is reported.  What is added to, and how, is a matter of the
format; which entries are added, and in which order, is not.  So both formats report the same keys
and have the same entities in the same order, each of them once.
-/

namespace Phrasebook
namespace Table

/-! ## One pass over entries -/

/-- What has been made of some entries, and the reports on those that were left out. -/
structure Draft (Output : Type) where
  /-- What the entries with a place in the table were added to. -/
  output : Output
  /-- The reports on the others, in order. -/
  skipped : List Entity.Error

variable {Output : Type}

/-- One more entry is added, or reported if its key cannot be split. -/
def Draft.take
    (add : Output → Entity.Key × Entity.Record → Output)
    (draft : Draft Output)
    (entry : Text × Entity.Record) :
    Draft Output :=
  match Entity.Key.parse? entry.1 with
  | some key => { draft with output := add draft.output (key, entry.2) }
  | none => { draft with skipped := draft.skipped ++ [.missingNamespace entry.1] }

/-- What is made of entries that are taken one after the other. -/
def drafted
    (add : Output → Entity.Key × Entity.Record → Output)
    (start : Output)
    (entries : List (Text × Entity.Record)) :
    Draft Output :=
  entries.foldl (Draft.take add) ⟨start, []⟩

/-- One more statement at the end. -/
def Statements.addStatement
    (locale body : Text)
    (entity : Entity.Key × Entity.Record) :
    Text :=
  body ++ statement locale entity.1 entity.2

/-- The document of a locale with the names of each namespace. -/
def Document.ofGroups (locale : Text) (spaces : List (Text × List (Text × Json))) : Json :=
  .object [(locale, .object (spaces.map fun space => (space.1, .object space.2)))]

/-- The table that is composed of entries as they come, and the reports on those left out. -/
def compose
    (format : Format)
    (locale : Text)
    (entries : List (Text × Entity.Record)) :
    Text × List Entity.Error :=
  match format with
  | .php =>
      let draft := drafted (Statements.addStatement locale) [] entries
      (Statements.header ++ draft.output ++ Statements.footer, draft.skipped)
  | .json =>
      let draft := drafted Document.addEntity [] entries
      ((Document.ofGroups locale draft.output).pretty 0 ++ ['\n'], draft.skipped)

/-- An entry with a key that can be split. -/
def split? (entry : Text × Entity.Record) : Option (Entity.Key × Entity.Record) :=
  (Entity.Key.parse? entry.1).map fun key => (key, entry.2)

theorem listed_eq_filterMap (entities : Entity.Map) :
    listed entities = entities.sorted.filterMap split? :=
  rfl

theorem skipped_eq_map_filter (entities : Entity.Map) :
    skipped entities =
      ((entities.sorted.map Prod.fst).filter fun full =>
        (Entity.Key.parse? full).isNone).map .missingNamespace := by
  rw [skipped, unlisted, List.filter_map]
  rfl

/-- What can be split is added in order, and the others are reported in order. -/
theorem foldl_take
    (add : Output → Entity.Key × Entity.Record → Output)
    (draft : Draft Output)
    (entries : List (Text × Entity.Record)) :
    entries.foldl (Draft.take add) draft =
      ⟨(entries.filterMap split?).foldl add draft.output,
        draft.skipped ++ ((entries.map Prod.fst).filter fun full =>
          (Entity.Key.parse? full).isNone).map .missingNamespace⟩ := by
  induction entries generalizing draft with
  | nil => simp
  | cons entry entries ih =>
      rw [List.foldl_cons, ih]
      cases parsed : Entity.Key.parse? entry.1 with
      | none => simp [Draft.take, split?, parsed]
      | some key => simp [Draft.take, split?, parsed]

theorem drafted_sorted
    (add : Output → Entity.Key × Entity.Record → Output)
    (start : Output)
    (entities : Entity.Map) :
    drafted add start entities.sorted =
      ⟨(listed entities).foldl add start, skipped entities⟩ := by
  rw [drafted, foldl_take, List.nil_append, ← listed_eq_filterMap, ← skipped_eq_map_filter]

theorem foldl_addStatement
    (locale body : Text)
    (listing : List (Entity.Key × Entity.Record)) :
    listing.foldl (Statements.addStatement locale) body =
      body ++ listing.flatMap fun entity => Statements.statement locale entity.1 entity.2 := by
  rw [List.flatMap_def]
  exact List.foldl_append_eq_append

/-- Composing the sorted entries renders the map. -/
theorem compose_sorted
    (format : Format)
    (locale : Text)
    (entities : Entity.Map) :
    compose format locale entities.sorted = (render format locale entities, skipped entities) := by
  cases format with
  | php =>
      simp only [compose, drafted_sorted, foldl_addStatement, List.nil_append]
      rfl
  | json =>
      simp only [compose, drafted_sorted]
      rfl

/-! ## The same entities in the same order -/

/-- What is listed, with the keys written out, are the sorted entries that can be split. -/
theorem map_text_listed (entities : Entity.Map) :
    (listed entities).map (fun entity => (entity.1.text, entity.2)) =
      entities.sorted.filter fun entry => (Entity.Key.parse? entry.1).isSome := by
  rw [listed_eq_filterMap]
  induction entities.sorted with
  | nil => rfl
  | cons entry entries ih =>
      cases parsed : Entity.Key.parse? entry.1 with
      | none => simpa [split?, parsed] using ih
      | some key => simpa [split?, parsed, Entity.Key.text_of_parse? parsed] using ih

/-- When an entity comes in, there is no value under its key yet. -/
theorem valueAt?_of_listed
    {entities : Entity.Map}
    {before after : List (Entity.Key × Entity.Record)}
    {entity : Entity.Key × Entity.Record}
    (whole : listed entities = before ++ entity :: after) :
    Document.valueAt? (before.foldl Document.addEntity []) entity.1 = none := by
  have distinct := nodup_keys_listed entities
  rw [whole, List.map_append, List.map_cons, List.nodup_append] at distinct
  have absent : Dictionary.lookup entity.1 before.reverse = none := by
    apply Dictionary.lookup_eq_none
    intro other member
    have earlier : other.1 ∈ before.map Prod.fst :=
      List.mem_map_of_mem (List.mem_reverse.mp member)
    exact distinct.2.2 _ earlier _ List.mem_cons_self
  rw [Document.valueAt?_foldl_addEntity, absent]
  rfl

theorem ofMap_eq_ofGroups (locale : Text) (entities : Entity.Map) :
    Document.ofMap locale entities =
      Document.ofGroups locale (Document.groups (listed entities)) := by
  rw [← Document.grouped_eq_groups]
  rfl

theorem length_flatMap_groups (entities : Entity.Map) :
    ((Document.groups (listed entities)).flatMap Prod.snd).length = (listed entities).length := by
  have leaves := (Document.perm_keysOf_grouped entities).length_eq
  rw [Document.keysOf, List.length_flatMap, List.length_map, Document.grouped_eq_groups] at leaves
  simpa only [List.length_flatMap, List.length_map] using leaves

/-- The tables of a map in both formats have the same entities in the same order. -/
structure ListsInOrder (locale : Text) (entities : Entity.Map) : Prop where
  /-- Both are composed of the sorted entries in one pass, and report the same. -/
  composed : ∀ format,
    compose format locale entities.sorted = (render format locale entities, skipped entities)
  /-- The keys that cannot be split are reported, in order. -/
  reported : skipped entities =
    ((entities.sorted.map Prod.fst).filter fun full =>
      (Entity.Key.parse? full).isNone).map .missingNamespace
  /-- All other entries are listed, in order. -/
  kept : (listed entities).map (fun entity => (entity.1.text, entity.2)) =
    entities.sorted.filter fun entry => (Entity.Key.parse? entry.1).isSome
  /-- No key is listed twice. -/
  once : ((listed entities).map Prod.fst).Nodup
  /-- There is one statement after the other, as they are listed; each of them begins with its key,
  and those are what the reader of statements finds. -/
  statements : Statements.Holds locale (render .php locale entities) (listed entities)
  /-- The namespaces are in the order of their first keys, and their names as they are listed. -/
  printed : render .json locale entities =
    (Document.ofGroups locale (Document.groups (listed entities))).pretty 0 ++ ['\n']
  /-- This document is what stands in the text. -/
  read : Json.read? (render .json locale entities) =
    some (Document.ofGroups locale (Document.groups (listed entities)))
  /-- No namespace is there twice, and no name twice in a namespace. -/
  distinct : Document.Distinct (Document.groups (listed entities))
  /-- Under a locale, a namespace and a name stands what is listed there, and nothing else. -/
  found : ∀ (key : Entity.Key) (value : Json),
    (Document.ofGroups locale (Document.groups (listed entities))).at?
        [locale, key.space, key.name] = some value ↔
      ∃ record, (key, record) ∈ listed entities ∧ Document.ofRecord record = value
  /-- No value takes the place of an earlier one. -/
  fresh : ∀ before entity after, listed entities = before ++ entity :: after →
    Document.valueAt? (before.foldl Document.addEntity []) entity.1 = none
  /-- There is a statement for each entity that is not left out. -/
  statementCount : (listed entities).length = entities.size - (skipped entities).length
  /-- There is a value for each entity that is not left out. -/
  valueCount : ((Document.groups (listed entities)).flatMap Prod.snd).length =
    entities.size - (skipped entities).length

theorem tables_list_in_order (locale : Text) (entities : Entity.Map) :
    ListsInOrder locale entities := by
  have count : (listed entities).length = entities.size - (skipped entities).length := by
    rw [← length_listed_add_length_skipped, Nat.add_sub_cancel]
  have document := ofMap_eq_ofGroups locale entities
  refine
    { composed := fun format => compose_sorted format locale entities
      reported := skipped_eq_map_filter entities
      kept := map_text_listed entities
      once := nodup_keys_listed entities
      statements := Statements.holds_render locale entities
      printed := ?_
      read := ?_
      distinct := ?_
      found := ?_
      fresh := fun _ _ _ whole => valueAt?_of_listed whole
      statementCount := count
      valueCount := (length_flatMap_groups entities).trans count }
  · rw [← document]
    rfl
  · rw [← document]
    exact Document.read?_render locale entities
  · rw [← Document.grouped_eq_groups]
    exact Document.distinct_grouped entities
  · intro key value
    rw [← document, Document.at?_ofMap, Document.valueAt?_grouped]

end Table
end Phrasebook
