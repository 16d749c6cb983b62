import Phrasebook.Proofs.Dictionary
import Phrasebook.Proofs.Json.Printing
import Phrasebook.Proofs.Outcome
import Phrasebook.Proofs.Table.Listing
import Phrasebook.Table.Store

/-!
# Reading a document back

The entities of a listing are grouped by namespace one after the other.  What a group holds is told
by looking up a namespace and then a name, and an entity that comes in changes only its own answer.
The document is therefore a faithful copy of the listing, and reading it gives every entity back,
with the quotes of its value escaped anew.
-/

namespace Phrasebook
namespace Table
namespace Document

open Text

/-! ## Groups -/

/-- The value of a key among the names of namespaces. -/
def valueAt? (spaces : List (Text × List (Text × Json))) (key : Entity.Key) : Option Json :=
  (Json.member? key.space spaces).bind (Json.member? key.name)

theorem valueAt?_addEntity
    (spaces : List (Text × List (Text × Json)))
    (entity : Entity.Key × Entity.Record)
    (key : Entity.Key) :
    valueAt? (addEntity spaces entity) key =
      if key = entity.1 then some (ofRecord entity.2) else valueAt? spaces key := by
  obtain ⟨⟨space, name⟩, record⟩ := entity
  obtain ⟨otherSpace, otherName⟩ := key
  simp only [valueAt?, addEntity, Json.member?_setMember, Entity.Key.mk.injEq]
  by_cases sameSpace : otherSpace = space
  · subst sameSpace
    rw [if_pos rfl, Option.bind_some, Json.member?_setMember]
    by_cases sameName : otherName = name
    · simp [sameName]
    · cases present : Json.member? otherSpace spaces <;> simp [sameName, Json.member?]
  · simp [sameSpace]

theorem valueAt?_foldl_addEntity
    (listing : List (Entity.Key × Entity.Record))
    (spaces : List (Text × List (Text × Json)))
    (key : Entity.Key) :
    valueAt? (listing.foldl addEntity spaces) key =
      ((Dictionary.lookup key listing.reverse).map ofRecord).or (valueAt? spaces key) := by
  induction listing generalizing spaces with
  | nil => rfl
  | cons entity listing ih =>
      rw [List.foldl_cons, ih, valueAt?_addEntity, List.reverse_cons, Dictionary.lookup_append]
      cases Dictionary.lookup key listing.reverse with
      | some record => rfl
      | none => by_cases same : key = entity.1 <;> simp [Dictionary.lookup, same]

theorem valueAt?_grouped
    {entities : Entity.Map}
    {key : Entity.Key}
    {value : Json} :
    valueAt? (grouped entities) key = some value ↔
      ∃ record, (key, record) ∈ listed entities ∧ ofRecord record = value := by
  have single : ∀ key first second,
      (key, first) ∈ (listed entities).reverse → (key, second) ∈ (listed entities).reverse →
        first = second := by
    intro key first second member other
    rw [List.mem_reverse, mem_listed] at member other
    exact Option.some.inj (member.2.symm.trans other.2)
  rw [grouped, valueAt?_foldl_addEntity]
  simp only [valueAt?, Json.member?, Option.bind_none, Option.or_none, Option.map_eq_some_iff,
    Dictionary.lookup_eq_some_iff single, List.mem_reverse]

/-- No namespace occurs twice, and no name occurs twice in a namespace. -/
structure Distinct (spaces : List (Text × List (Text × Json))) : Prop where
  /-- The namespaces are different. -/
  outer : (spaces.map Prod.fst).Nodup
  /-- The names in each namespace are different. -/
  inner : ∀ space names, (space, names) ∈ spaces → (names.map Prod.fst).Nodup

theorem distinct_addEntity
    {spaces : List (Text × List (Text × Json))}
    (distinct : Distinct spaces)
    (entity : Entity.Key × Entity.Record) :
    Distinct (addEntity spaces entity) := by
  have spacesDistinct : ((addEntity spaces entity).map Prod.fst).Nodup :=
    Json.nodup_setMember _ _ distinct.outer
  refine ⟨spacesDistinct, ?_⟩
  intro space names member
  rw [← Json.member?_eq_some_iff spacesDistinct, addEntity, Json.member?_setMember] at member
  split at member
  next =>
    injection member with same
    subst same
    apply Json.nodup_setMember
    cases present : Json.member? entity.1.space spaces with
    | none => exact List.nodup_nil
    | some names =>
        exact distinct.inner _ names ((Json.member?_eq_some_iff distinct.outer).mp present)
  next => exact distinct.inner space names ((Json.member?_eq_some_iff distinct.outer).mp member)

theorem distinct_foldl_addEntity
    {spaces : List (Text × List (Text × Json))}
    (distinct : Distinct spaces)
    (listing : List (Entity.Key × Entity.Record)) :
    Distinct (listing.foldl addEntity spaces) := by
  induction listing generalizing spaces with
  | nil => exact distinct
  | cons entity listing ih => exact ih (distinct_addEntity distinct entity)

theorem distinct_grouped (entities : Entity.Map) : Distinct (grouped entities) := by
  have nothing : Distinct [] := ⟨List.nodup_nil, by simp⟩
  exact distinct_foldl_addEntity nothing (listed entities)

/-- The groups hold the values of the listed records, each under its own key. -/
theorem mem_grouped
    {entities : Entity.Map}
    {space name : Text}
    {value : Json} :
    (∃ names, (space, names) ∈ grouped entities ∧ (name, value) ∈ names) ↔
      ∃ record, (⟨space, name⟩, record) ∈ listed entities ∧ ofRecord record = value := by
  have distinct := distinct_grouped entities
  rw [← valueAt?_grouped, valueAt?, Option.bind_eq_some_iff]
  constructor
  · rintro ⟨names, member, inside⟩
    refine ⟨names, (Json.member?_eq_some_iff distinct.outer).mpr member, ?_⟩
    exact (Json.member?_eq_some_iff (distinct.inner _ _ member)).mpr inside
  · rintro ⟨names, member, inside⟩
    rw [Json.member?_eq_some_iff distinct.outer] at member
    exact ⟨names, member, (Json.member?_eq_some_iff (distinct.inner _ _ member)).mp inside⟩

/-! ## The document -/

theorem printable_ofRecord
    (depth : Nat)
    (record : Entity.Record) :
    Json.Printable (depth + 1) (ofRecord record) := by
  obtain ⟨value, priority, comment⟩ := record
  have string (text : Text) : Json.Printable depth (.string text) := .string text
  cases priority <;> cases comment
  case none.none => exact .string _
  all_goals
    apply Json.Printable.array
    simp [string, Json.Printable.null]

theorem printable_ofMap
    (locale : Text)
    (entities : Entity.Map) :
    Json.Printable Json.maxDepth (ofMap locale entities) := by
  have distinct := distinct_grouped entities
  refine .object (by simp) ?_
  intro member inside
  rw [List.mem_singleton] at inside
  subst inside
  refine .object ?_ ?_
  · rw [List.map_map]
    exact distinct.outer
  · intro member inside
    obtain ⟨⟨space, names⟩, grouping, rfl⟩ := List.mem_map.mp inside
    refine .object (distinct.inner space names grouping) ?_
    rintro ⟨name, value⟩ named
    obtain ⟨record, -, rfl⟩ := mem_grouped.mp ⟨names, grouping, named⟩
    exact printable_ofRecord _ record

/-- A document is read back from its text. -/
theorem read?_render
    (locale : Text)
    (entities : Entity.Map) :
    Json.read? (render locale entities) = some (ofMap locale entities) :=
  Json.read?_pretty (printable_ofMap locale entities)

/-! ## Its entities -/

/-- A record whose value has had its quotes unescaped and escaped again. -/
def requoted (record : Entity.Record) : Entity.Record :=
  { record with value := escapeQuotes (unescapeQuotes record.value) }

theorem recordOf_ofRecord
    (key : Text)
    (record : Entity.Record) :
    recordOf key (ofRecord record) = .ok (requoted record) := by
  obtain ⟨value, priority, comment⟩ := record
  cases priority <;> cases comment <;> rfl

theorem entityOf_ofRecord
    (space name : Text)
    (record : Entity.Record) :
    entityOf space (name, ofRecord record) = .ok (space ++ '.' :: name, requoted record) := by
  rw [entityOf, recordOf_ofRecord]
  rfl

theorem exists_entitiesOfSpace
    {entities : Entity.Map}
    {space : Text}
    {names : List (Text × Json)}
    (grouping : (space, names) ∈ grouped entities) :
    ∃ found, entitiesOfSpace (space, .object names) = .ok found ∧
      ∀ result, result ∈ found ↔ ∃ member ∈ names, entityOf space member = .ok result := by
  have readable : ∀ member ∈ names, ∃ result, entityOf space member = .ok result := by
    rintro ⟨name, value⟩ named
    obtain ⟨record, -, rfl⟩ := mem_grouped.mp ⟨names, grouping, named⟩
    exact ⟨_, entityOf_ofRecord space name record⟩
  obtain ⟨found, read⟩ := Outcome.exists_mapM readable
  exact ⟨found, read, Outcome.mem_iff_of_mapM read⟩

theorem exists_entitiesOfSpaces (entities : Entity.Map) :
    ∃ lists, ((grouped entities).map fun (space, names) =>
        (space, Json.object names)).mapM entitiesOfSpace = .ok lists ∧
      ∀ result, result ∈ lists.flatten ↔
        ∃ space names, (space, names) ∈ grouped entities ∧
          ∃ member ∈ names, entityOf space member = .ok result := by
  have readable {space : Text × Json}
      (member : space ∈ (grouped entities).map fun space => (space.1, Json.object space.2)) :
      ∃ found, entitiesOfSpace space = .ok found := by
    obtain ⟨⟨space, names⟩, grouping, rfl⟩ := List.mem_map.mp member
    obtain ⟨found, read, -⟩ := exists_entitiesOfSpace grouping
    exact ⟨found, read⟩
  obtain ⟨lists, readAll⟩ := Outcome.exists_mapM fun space => readable
  have members := Outcome.mem_iff_of_mapM readAll
  refine ⟨lists, readAll, ?_⟩
  intro result
  rw [List.mem_flatten]
  simp only [members]
  constructor
  · rintro ⟨list, ⟨_, member, read⟩, inside⟩
    obtain ⟨⟨space, names⟩, grouping, rfl⟩ := List.mem_map.mp member
    obtain ⟨found, readFound, ofNames⟩ := exists_entitiesOfSpace grouping
    rw [readFound] at read
    injection read with same
    subst same
    exact ⟨space, names, grouping, (ofNames result).mp inside⟩
  · rintro ⟨space, names, grouping, member, named, read⟩
    obtain ⟨found, readFound, ofNames⟩ := exists_entitiesOfSpace grouping
    refine ⟨found, ⟨_, List.mem_map.mpr ⟨_, grouping, rfl⟩, readFound⟩, ?_⟩
    exact (ofNames result).mpr ⟨member, named, read⟩

/-- What is read from a document are the entities whose keys can be split. -/
theorem toMap_ofMap
    (locale : Text)
    (entities : Entity.Map) :
    ∃ found, toMap (ofMap locale entities) = .ok (Dictionary.ofList found) ∧
      ∀ full record, (full, record) ∈ found ↔
        (Entity.Key.parse? full).isSome ∧ (entities.get? full).map requoted = some record := by
  obtain ⟨lists, readAll, members⟩ := exists_entitiesOfSpaces entities
  refine ⟨lists.flatten, ?_, ?_⟩
  · simp [toMap, ofMap, entitiesOfLocale, readAll, Except.map, bind, Except.bind, pure, Except.pure]
  · intro full record
    rw [members, Option.map_eq_some_iff]
    constructor
    · rintro ⟨space, names, grouping, ⟨name, value⟩, named, read⟩
      obtain ⟨original, source, rfl⟩ := mem_grouped.mp ⟨names, grouping, named⟩
      rw [entityOf_ofRecord] at read
      simp only [Except.ok.injEq, Prod.mk.injEq] at read
      obtain ⟨rfl, rfl⟩ := read
      obtain ⟨split, present⟩ := mem_listed.mp source
      exact ⟨Option.isSome_iff_exists.mpr ⟨_, split⟩, original, present, rfl⟩
    · rintro ⟨split, original, present, rfl⟩
      obtain ⟨key, split⟩ := Option.isSome_iff_exists.mp split
      obtain rfl := Entity.Key.text_of_parse? split
      have source : (key, original) ∈ listed entities := mem_listed.mpr ⟨split, present⟩
      obtain ⟨names, grouping, named⟩ := mem_grouped.mpr ⟨original, source, rfl⟩
      exact ⟨key.space, names, grouping, _, named, entityOf_ofRecord key.space key.name original⟩

/-- A map whose values have their quotes escaped is read back as far as it has a place. -/
theorem read_render_of_requoted
    (locale : Text)
    {entities : Entity.Map}
    (escaped : ∀ full, (entities.get? full).map requoted = entities.get? full) :
    read (render locale entities) = .ok (placed entities) := by
  obtain ⟨found, readBack, members⟩ := toMap_ofMap locale entities
  have same : Dictionary.ofList found = placed entities := by
    apply Dictionary.ofList_eq_of_mem_iff
    rintro ⟨full, record⟩
    rw [members, escaped, mem_placed]
  rw [read, read?_render, ← same]
  exact readBack

end Document

open Document

/-- A document gives back every entity whose key can be split, and nothing else. -/
theorem read_render_document
    (locale : Text)
    (entities : Entity.Map) :
    ∃ found, read .json (render .json locale entities) = .ok found ∧
      ∀ full, found.get? full =
        if (Entity.Key.parse? full).isSome then (entities.get? full).map requoted else none := by
  obtain ⟨found, readBack, members⟩ := toMap_ofMap locale entities
  have single : ∀ key first second,
      (key, first) ∈ found.reverse → (key, second) ∈ found.reverse → first = second := by
    intro key first second member other
    rw [List.mem_reverse, members] at member other
    exact Option.some.inj (member.2.symm.trans other.2)
  refine ⟨Dictionary.ofList found, ?_, ?_⟩
  · change Document.read (Document.render locale entities) = .ok (Dictionary.ofList found)
    rw [Document.read, read?_render]
    exact readBack
  · intro full
    ext record
    rw [Dictionary.get?_ofList, Dictionary.lookup_eq_some_iff single, List.mem_reverse, members]
    split
    next split => simp only [split, true_and]
    next split => simp only [split, false_and, reduceCtorEq]

end Table
end Phrasebook
