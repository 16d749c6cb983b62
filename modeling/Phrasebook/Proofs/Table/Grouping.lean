import Mathlib.Data.List.Induction
import Phrasebook.Proofs.Table.Document

/-!
# The groups of a document

A document takes in one entity after the other.  One whose namespace is new opens a group at the
end, and every other one goes to the end of its group, since its key was not there before.  So the
namespaces are in the order of their first keys, and each has its names in the order of the listing.
-/

namespace Phrasebook
namespace Table
namespace Document

variable {listing : List (Entity.Key × Entity.Record)} {entity : Entity.Key × Entity.Record}

/-- The namespaces of a listing, each at the place of its first key. -/
def spacesOf (listing : List (Entity.Key × Entity.Record)) : List Text :=
  (listing.map fun entity => entity.1.space).eraseDups

/-- The names in a namespace with their values, in the order of a listing. -/
def membersIn
    (listing : List (Entity.Key × Entity.Record))
    (space : Text) :
    List (Text × Json) :=
  (listing.filter fun entity => entity.1.space = space).map fun entity =>
    (entity.1.name, ofRecord entity.2)

/-- The namespaces of a listing with their names. -/
def groups (listing : List (Entity.Key × Entity.Record)) : List (Text × List (Text × Json)) :=
  (spacesOf listing).map fun space => (space, membersIn listing space)

theorem mem_spacesOf {space : Text} :
    space ∈ spacesOf listing ↔ ∃ entity ∈ listing, entity.1.space = space := by
  rw [spacesOf, List.mem_eraseDups, List.mem_map]

/-- One more entity opens a group at the end if its namespace is new. -/
theorem spacesOf_append_singleton
    (listing : List (Entity.Key × Entity.Record))
    (entity : Entity.Key × Entity.Record) :
    spacesOf (listing ++ [entity]) =
      if entity.1.space ∈ spacesOf listing then spacesOf listing
      else spacesOf listing ++ [entity.1.space] := by
  simp only [spacesOf, List.map_append, List.map_cons, List.map_nil, List.eraseDups_append,
    List.mem_eraseDups]
  by_cases present : entity.1.space ∈ listing.map fun entity => entity.1.space <;>
    simp [List.removeAll, List.eraseDups_cons, present]

theorem nodup_spacesOf (listing : List (Entity.Key × Entity.Record)) :
    (spacesOf listing).Nodup := by
  induction listing using List.reverseRecOn with
  | nil => exact List.nodup_nil
  | append_singleton listing entity ih =>
      rw [spacesOf_append_singleton]
      split
      next => exact ih
      next absent =>
        refine List.nodup_append.mpr ⟨ih, List.nodup_singleton _, ?_⟩
        intro space member other isNew same
        rw [List.mem_singleton] at isNew
        exact absent (isNew ▸ same ▸ member)

theorem membersIn_append_singleton
    (listing : List (Entity.Key × Entity.Record))
    (entity : Entity.Key × Entity.Record)
    (space : Text) :
    membersIn (listing ++ [entity]) space =
      if entity.1.space = space then
        membersIn listing space ++ [(entity.1.name, ofRecord entity.2)]
      else
        membersIn listing space := by
  by_cases same : entity.1.space = space <;> simp [membersIn, same]

theorem membersIn_eq_nil
    {space : Text}
    (absent : space ∉ spacesOf listing) :
    membersIn listing space = [] := by
  rw [membersIn, List.map_eq_nil_iff, List.filter_eq_nil_iff]
  intro entity member same
  exact absent (mem_spacesOf.mpr ⟨entity, member, of_decide_eq_true same⟩)

theorem name_not_mem_membersIn (fresh : entity.1 ∉ listing.map Prod.fst) :
    entity.1.name ∉ (membersIn listing entity.1.space).map Prod.fst := by
  simp only [membersIn, List.map_map, List.mem_map, List.mem_filter, not_exists]
  rintro other ⟨⟨member, sameSpace⟩, sameName⟩
  have sameKey : other.1 = entity.1 := by
    change Entity.Key.mk other.1.space other.1.name = entity.1
    rw [of_decide_eq_true sameSpace, show other.1.name = entity.1.name from sameName]
  exact fresh (sameKey ▸ List.mem_map_of_mem member)

theorem names_groups (listing : List (Entity.Key × Entity.Record)) :
    (groups listing).map Prod.fst = spacesOf listing := by
  rw [groups, List.map_map]
  exact List.map_id _

/-- A namespace that is not there has no names yet. -/
theorem member?_groups (listing : List (Entity.Key × Entity.Record)) (space : Text) :
    (Json.member? space (groups listing)).getD [] = membersIn listing space := by
  by_cases present : space ∈ spacesOf listing
  · have distinct : ((groups listing).map Prod.fst).Nodup := by
      rw [names_groups]
      exact nodup_spacesOf listing
    have member : (space, membersIn listing space) ∈ groups listing :=
      List.mem_map_of_mem present
    rw [(Json.member?_eq_some_iff distinct).mpr member, Option.getD_some]
  · have absent : space ∉ (groups listing).map Prod.fst := by rwa [names_groups]
    rw [Json.member?_eq_none absent, Option.getD_none, membersIn_eq_nil present]

/-- One more entity goes to the end of its group. -/
theorem addEntity_groups (fresh : entity.1 ∉ listing.map Prod.fst) :
    addEntity (groups listing) entity = groups (listing ++ [entity]) := by
  have own : Json.setMember entity.1.name (ofRecord entity.2) (membersIn listing entity.1.space) =
      membersIn (listing ++ [entity]) entity.1.space := by
    rw [Json.setMember_of_not_mem _ (name_not_mem_membersIn fresh), membersIn_append_singleton,
      if_pos rfl]
  have elsewhere : ∀ space, space ≠ entity.1.space →
      membersIn (listing ++ [entity]) space = membersIn listing space := by
    intro space other
    rw [membersIn_append_singleton, if_neg (Ne.symm other)]
  simp only [addEntity, member?_groups, own]
  rw [groups, groups, spacesOf_append_singleton]
  split
  next present => exact Json.setMember_map (nodup_spacesOf listing) present elsewhere
  next absent =>
    have unchanged : (spacesOf listing).map (fun space => (space, membersIn listing space)) =
        (spacesOf listing).map fun space => (space, membersIn (listing ++ [entity]) space) := by
      apply List.map_congr_left
      intro space member
      rw [elsewhere space fun same => absent (same ▸ member)]
    have absentName : entity.1.space ∉
        ((spacesOf listing).map fun space => (space, membersIn listing space)).map Prod.fst := by
      rwa [← groups, names_groups]
    rw [Json.setMember_of_not_mem _ absentName, unchanged, List.map_append, List.map_cons,
      List.map_nil]

theorem foldl_addEntity_groups
    {front listing : List (Entity.Key × Entity.Record)}
    (distinct : ((front ++ listing).map Prod.fst).Nodup) :
    listing.foldl addEntity (groups front) = groups (front ++ listing) := by
  induction listing generalizing front with
  | nil => rw [List.foldl_nil, List.append_nil]
  | cons entity listing ih =>
      have regrouped : front ++ entity :: listing = (front ++ [entity]) ++ listing := by simp
      have fresh : entity.1 ∉ front.map Prod.fst := by
        intro present
        rw [List.map_append, List.map_cons, List.nodup_append] at distinct
        exact distinct.2.2 _ present _ List.mem_cons_self rfl
      rw [regrouped] at distinct
      rw [List.foldl_cons, addEntity_groups fresh, ih distinct, regrouped]

theorem grouped_eq_groups (entities : Entity.Map) :
    grouped entities = groups (listed entities) := by
  have distinct : (([] ++ listed entities).map Prod.fst).Nodup := nodup_keys_listed entities
  exact foldl_addEntity_groups distinct

end Document
end Table
end Phrasebook
