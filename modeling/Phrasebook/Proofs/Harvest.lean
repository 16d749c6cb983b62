import Phrasebook.Harvest
import Phrasebook.Proofs.CallSite.Scanning
import Phrasebook.Proofs.Dictionary
import Phrasebook.Proofs.Entity.Map

/-!
# Where harvested entities come from

Every entity of a harvest is the entity of a call site that was found in the text.  One call site
brings in at most its own entity, and a fold over the call sites keeps this.  Harvests that are
added up have the keys of all of them, and their entities come from them.
-/

namespace Phrasebook
namespace Harvest

/-- The entity is what a call site amounts to. -/
def ComesFrom
    (fallback : Option Text)
    (entity : Text × Entity.Record)
    (site : CallSite) : Prop :=
  ∃ key, Entity.ofCallSite fallback site = .ok (key, entity.2) ∧ key.text = entity.1

theorem mem_addCallSite
    {fallback : Option Text}
    {harvest : Harvest}
    {site : CallSite}
    {entity : Text × Entity.Record}
    (member : entity ∈ (harvest.addCallSite fallback site).entities.entries) :
    ComesFrom fallback entity site ∨ entity ∈ harvest.entities.entries := by
  unfold addCallSite at member
  split at member
  next key record normal =>
    rcases Dictionary.mem_insert member with rfl | earlier
    · exact .inl ⟨key, normal, rfl⟩
    · exact .inr earlier
  next => exact .inr member

theorem mem_foldl_addCallSite
    {fallback : Option Text}
    {occurrences : List CallSite.Occurrence}
    {harvest : Harvest}
    {entity : Text × Entity.Record}
    (member : entity ∈ (occurrences.foldl
      (fun harvest occurrence => harvest.addCallSite fallback occurrence.site)
        harvest).entities.entries) :
    (∃ occurrence ∈ occurrences, ComesFrom fallback entity occurrence.site) ∨
      entity ∈ harvest.entities.entries := by
  induction occurrences generalizing harvest with
  | nil => exact .inr member
  | cons first rest ih =>
      rcases ih member with ⟨occurrence, later, origin⟩ | earlier
      · exact .inl ⟨occurrence, List.mem_cons_of_mem first later, origin⟩
      · rcases mem_addCallSite earlier with origin | before
        · exact .inl ⟨first, List.mem_cons_self, origin⟩
        · exact .inr before

theorem mem_ofText
    {function text : Text}
    {fallback : Option Text}
    {entity : Text × Entity.Record}
    (member : entity ∈ (ofText function fallback text).entities.entries) :
    ∃ occurrence ∈ CallSite.scan function text, ComesFrom fallback entity occurrence.site := by
  rcases mem_foldl_addCallSite member with origin | nothing
  · exact origin
  · exact absurd nothing List.not_mem_nil

theorem get?_absorb
    (harvest later : Harvest)
    (key : Text) :
    (harvest.absorb later).entities.get? key =
      (later.entities.get? key).or (harvest.entities.get? key) :=
  Entity.Map.get?_merge harvest.entities later.entities key

@[simp]
theorem contains_absorb
    (harvest later : Harvest)
    (key : Text) :
    (harvest.absorb later).entities.contains key =
      (later.entities.contains key || harvest.entities.contains key) := by
  rw [Dictionary.contains, get?_absorb, Option.isSome_or]
  rfl

end Harvest
end Phrasebook
