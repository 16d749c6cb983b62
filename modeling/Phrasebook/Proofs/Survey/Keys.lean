import Phrasebook.Proofs.Entity.Normal
import Phrasebook.Proofs.Survey.Findings

/-!
# Keys of surveys

Whatever is found in a text, in code or in a template or behind one of its directives, has a key
that can be split into namespace and name.  An entity of a survey whose key cannot be split was
therefore declared.
-/

namespace Phrasebook

namespace Finding

/-- All keys that are defined can be split. -/
def Split (findings : List Finding) : Prop :=
  ∀ key record, definition key record ∈ findings → (Entity.Key.parse? key).isSome

variable {findings others : List Finding}

theorem Split.nothing : Split [] :=
  fun _ _ member => absurd member List.not_mem_nil

theorem Split.append
    (split : Split findings)
    (splitOthers : Split others) :
    Split (findings ++ others) :=
  fun key record member => (List.mem_append.mp member).elim (split key record)
    (splitOthers key record)

theorem split_ofText
    (function text : Text)
    (fallback : Option Text) :
    Split (ofText function fallback text) := by
  intro key record member
  obtain ⟨occurrence, -, same⟩ := List.mem_map.mp member
  unfold ofCallSite at same
  split at same
  next found _ normal =>
    obtain ⟨rfl, rfl⟩ := Finding.definition.inj same
    obtain ⟨resolved, -⟩ := Entity.resolve_of_ofCallSite normal
    rw [Entity.Key.parse?_text_of_resolve resolved]
    rfl
  next => cases same

/-- The last definition of a key is one of those that were found. -/
theorem IsLast.definition_mem
    {key : Text}
    {record : Entity.Record}
    (last : IsLast findings key record) :
    definition key record ∈ findings := by
  obtain ⟨front, behind, whole, -⟩ := last
  have member : (key, record) ∈ definitions findings := by
    rw [whole]
    exact List.mem_append_right front List.mem_cons_self
  obtain ⟨finding, found, defined⟩ := List.mem_filterMap.mp member
  cases finding with
  | definition other value =>
      obtain ⟨rfl, rfl⟩ := Prod.mk.inj (Option.some.inj defined)
      exact found
  | omission warning => cases defined

end Finding

open Finding (Split)

/-- Keys can be split in a template and behind its directives. -/
theorem Include.Setting.split_findings
    (setting : Setting)
    (chain : Chain)
    (space text : Text) :
    Split (setting.findings chain space text) := by
  -- The harvest plays no part: the induction is the one that follows the directives.
  refine @whole_induction setting (fun _ findings => Split findings) Split.nothing ?_
    (fun _ _ split _ _ splitOthers => split.append splitOthers)
    (fun function fallback text => Finding.split_ofText function text fallback) chain
    ⟨[], space, text⟩
  intro _ _ split warning
  refine split.append fun key record member => ?_
  cases List.mem_singleton.mp member

namespace Collector

variable
  {collector : Collector}
  {disk : Disk}
  {module full : Text}
  {record : Entity.Record}

theorem split_findingsIn
    {found : Path → Text → List Finding}
    (split : ∀ path text, Split (found path text))
    (files : List Path) :
    Split (files.flatMap (disk.findingsIn collector.access found)) := by
  intro key record member
  obtain ⟨path, -, inside⟩ := List.mem_flatMap.mp member
  unfold Disk.findingsIn at inside
  split at inside
  · cases inside
  next text _ => exact split path text key record inside

/-- What a survey has under a key that cannot be split was declared. -/
theorem declared_of_survey
    (present : (collector.survey disk module).entities.get? full = some record)
    (noSplit : Entity.Key.parse? full = none) :
    ∃ map ∈ collector.declared.mapsOf module, map.get? full = some record := by
  have last := (survey_keeps_last_definitions collector disk module).1 full record |>.mp present
  have notAmong {findings : List Finding} (split : Split findings) :
      .definition full record ∉ findings := by
    intro member
    have known := split full record member
    rw [noSplit] at known
    cases known
  rcases List.mem_append.mp last.definition_mem with front | inTemplates
  · rcases List.mem_append.mp front with inCode | declared
    · exact absurd inCode (notAmong (split_findingsIn
        (fun _ text => Finding.split_ofText _ text none) _))
    · obtain ⟨map, member, inside⟩ := List.mem_flatMap.mp declared
      obtain ⟨entry, inMap, same⟩ := List.mem_map.mp inside
      obtain ⟨rfl, rfl⟩ := Finding.definition.inj same
      exact ⟨map, member, Dictionary.get?_eq_some_iff.mpr inMap⟩
  · exact absurd inTemplates (notAmong (split_findingsIn
      (fun _ text => Include.Setting.split_findings _ _ _ text) _))

end Collector
end Phrasebook
