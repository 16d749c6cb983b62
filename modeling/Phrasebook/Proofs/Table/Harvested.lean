import Phrasebook.Proofs.Entity.Normal
import Phrasebook.Proofs.Harvest
import Phrasebook.Proofs.Table.Document
import Phrasebook.Proofs.Table.Statements

/-!
# Harvests in tables

The entities of a text have keys that can be split and priorities that are single clean tokens.
What a table of statements then loses are exactly the entities that are not legible: a quote in the
key, a value or a comment whose literal would close early, or a priority that is the word for a
missing one.

A document loses none of them.  The quotes of a value are escaped from whichever literal it comes,
and that is how a document gives values back.
-/

namespace Phrasebook
namespace Table

open Text Statements

theorem plainPriority_of_token
    {priority : Text}
    (nonempty : priority ≠ [])
    (trimmed : trim priority = priority)
    (clean : ∀ char ∈ priority, char ≠ '\n' ∧ char ≠ '\x0d' ∧ char ≠ ',' ∧ char ≠ ')') :
    PlainPriority priority := by
  refine ⟨nonempty, trimmed, fun member => (clean _ member).1 rfl, ?_⟩
  intro closed
  exact (clean ')' (closed.mem List.mem_cons_self)).2.2.2 rfl

/-- Every key of a text can be split. -/
theorem isSome_parse?_of_mem_ofText
    {function text : Text}
    {fallback : Option Text}
    {entity : Text × Entity.Record}
    (member : entity ∈ (Harvest.ofText function fallback text).entities.entries) :
    (Entity.Key.parse? entity.1).isSome := by
  obtain ⟨_, _, _, normal, written⟩ := Harvest.mem_ofText member
  obtain ⟨resolved, -⟩ := Entity.resolve_of_ofCallSite normal
  rw [← written, Entity.Key.parse?_text_of_resolve resolved]
  rfl

/-- An entity of a text lacks at most legibility to be stored. -/
theorem storable_of_mem_ofText
    {function text : Text}
    {fallback : Option Text}
    {entity : Text × Entity.Record}
    (member : entity ∈ (Harvest.ofText function fallback text).entities.entries)
    (legible : Legible entity.1 entity.2) :
    Storable entity.1 entity.2 := by
  refine ⟨legible, isSome_parse?_of_mem_ofText member, ?_⟩
  intro priority present
  obtain ⟨_, found, _, normal, -⟩ := Harvest.mem_ofText member
  obtain ⟨-, record⟩ := Entity.resolve_of_ofCallSite normal
  rw [record] at present
  obtain ⟨raw, given, normalized⟩ := Option.bind_eq_some_iff.mp present
  obtain ⟨_, _, _, -, -, -, spelled⟩ := CallSite.standsIn_of_mem_scanFrom found
  obtain ⟨nonempty, trimmed, clean⟩ :=
    Entity.token_of_normalPriority? (spelled.priorityText given) normalized
  exact plainPriority_of_token nonempty trimmed clean

/-- The values of a text have their quotes escaped. -/
theorem requoted_of_mem_ofText
    {function text : Text}
    {fallback : Option Text}
    {entity : Text × Entity.Record}
    (member : entity ∈ (Harvest.ofText function fallback text).entities.entries) :
    Document.requoted entity.2 = entity.2 := by
  obtain ⟨_, found, _, normal, -⟩ := Harvest.mem_ofText member
  obtain ⟨-, record⟩ := Entity.resolve_of_ofCallSite normal
  obtain ⟨_, _, _, -, -, -, spelled⟩ := CallSite.standsIn_of_mem_scanFrom found
  rw [record, Document.requoted, Entity.recordOf,
    Entity.escapeQuotes_unescapeQuotes_normalValue spelled.value]

theorem read_render_harvest_iff
    {locale : Text}
    (localePlain : '\x27' ∉ locale)
    (function text : Text)
    (fallback : Option Text) :
    read .php (render .php locale (Harvest.ofText function fallback text).entities) =
        .ok (Harvest.ofText function fallback text).entities ↔
      ∀ entity ∈ (Harvest.ofText function fallback text).entities.entries,
        Legible entity.1 entity.2 := by
  constructor
  · intro same entity member
    injection same with same
    rw [← same] at member
    exact legible_of_mem_read member
  · intro legible
    refine congrArg Except.ok (read_render localePlain ?_)
    intro entity member
    exact storable_of_mem_ofText member (legible entity member)

/-- An entity with an apostrophe in every place that allows one. -/
theorem read_render_harvest_iff_apostrophes :
    let entities := (Harvest.ofText "_t".toList (some "Cms".toList)
      "<%= _t(\x22Title\x22, \x22It's\x22, 'a' 10, \x22the site's\x22) %>".toList).entities
    read .php (render .php "en_US".toList entities) = .ok entities :=
  (read_render_harvest_iff (by decide) _ _ _).mpr (by decide +kernel)

/-- One call for each way to be illegible: the key, the value, the priority and the comment. -/
theorem read_render_harvest_ne :
    let entities (text : String) := (Harvest.ofText "_t".toList none text.toList).entities
    let reread (text : String) := read .php (render .php "en_US".toList (entities text))
    reread "_t(\x22A.B'C\x22, 'Save')" ≠ .ok (entities "_t(\x22A.B'C\x22, 'Save')") ∧
      reread "_t('A.B', \x22It\x5c's\x22)" ≠ .ok (entities "_t('A.B', \x22It\x5c's\x22)") ∧
      reread "_t('A.B', 'Save', null)" ≠ .ok (entities "_t('A.B', 'Save', null)") ∧
      reread "_t('A.B', 'Save', 10, 'It\x5c's a label')" ≠
        .ok (entities "_t('A.B', 'Save', 10, 'It\x5c's a label')") := by
  refine ⟨?_, ?_, ?_, ?_⟩
  all_goals
    intro same
    injection same with same
    revert same
    decide +kernel

/-- A document of what was found in a text leaves nothing out and gives it back unchanged. -/
theorem read_render_harvest_document
    (locale function text : Text)
    (fallback : Option Text) :
    skipped (Harvest.ofText function fallback text).entities = [] ∧
      read .json (render .json locale (Harvest.ofText function fallback text).entities) =
        .ok (Harvest.ofText function fallback text).entities := by
  have split : ∀ entity ∈ (Harvest.ofText function fallback text).entities.entries,
      (Entity.Key.parse? entity.1).isSome :=
    fun _ member => isSome_parse?_of_mem_ofText member
  refine ⟨skipped_eq_nil split, ?_⟩
  have readBack := Document.read_render_of_requoted locale fun full => by
    cases present : (Harvest.ofText function fallback text).entities.get? full with
    | none => rfl
    | some record =>
        have member := Dictionary.get?_eq_some_iff.mp present
        rw [Option.map_some, requoted_of_mem_ofText member]
  rw [placed_eq_self split] at readBack
  exact readBack

end Table
end Phrasebook
