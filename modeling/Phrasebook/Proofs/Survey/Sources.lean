import Phrasebook.Proofs.Include.Agreement
import Phrasebook.Proofs.Survey.Agreement

/-!
# Sources of surveys

A survey of a module looks at its folders of code and of templates, at the selected files below
them, and at what the templates include.  Where all this is the same on two disks, the survey is.
Where the suffix of templates has a slash no template is selected, and nothing is included.
-/

namespace Phrasebook
namespace Collector

variable
  {collector : Collector}
  {first second : Disk}
  {module : Text}

theorem codeRoot?_congr
    (shaped : Disk.SameShapeAlong first second
      ((collector.moduleFolder module).join collector.settings.codeFolder)) :
    collector.codeRoot? second module = collector.codeRoot? first module := by
  simp only [codeRoot?, Disk.holdsFolder_congr_of_sameShape shaped]

theorem templateRoot?_congr
    (shaped : Disk.SameShapeAlong first second
      ((collector.moduleFolder module).join collector.settings.templateFolder)) :
    collector.templateRoot? second module = collector.templateRoot? first module := by
  simp only [templateRoot?, Disk.holdsFolder_congr_of_sameShape shaped]

/-- The templates of a module are the same on two disks, with what they include. -/
structure SameTemplates
    (collector : Collector)
    (first second : Disk)
    (module : Text) : Prop where
  /-- The folder of templates is there on both disks or on none. -/
  templateRoot : collector.templateRoot? second module = collector.templateRoot? first module
  /-- The templates are the same. -/
  templates : ∀ root, collector.templateRoot? first module = some root →
    collector.SameSelected first second (collector.moduleFolder module)
      collector.settings.templateExtension root
  /-- Templates include the same. -/
  included : '/' ∉ collector.settings.templateExtension →
    (collector.expansion first).Agrees (collector.expansion second)

/-- What a survey of a module looks at is the same on two disks. -/
structure SameSources
    (collector : Collector)
    (first second : Disk)
    (module : Text) : Prop extends SameTemplates collector first second module where
  /-- The code is read from the same folder. -/
  codeRoot : collector.codeRoot? second module = collector.codeRoot? first module
  /-- The code is the same. -/
  code : ∀ root, collector.codeRoot? first module = some root →
    collector.SameSelected first second (collector.moduleFolder module)
      collector.settings.codeExtension root

/-- Templates are read from the folder of templates. -/
theorem of_templateRoot?
    {disk : Disk}
    {root : Path}
    (found : collector.templateRoot? disk module = some root) :
    root = (collector.moduleFolder module).join collector.settings.templateFolder := by
  simp only [templateRoot?] at found
  split at found
  · exact (Option.some.inj found).symm
  · cases found

/-- The templates of a module are the same where those in their folder are. -/
theorem sameTemplates_of_sameSelected
    (shaped : Disk.SameShapeAlong first second
      ((collector.moduleFolder module).join collector.settings.templateFolder))
    (selected : collector.SameSelected first second (collector.moduleFolder module)
      collector.settings.templateExtension
      ((collector.moduleFolder module).join collector.settings.templateFolder))
    (included : '/' ∉ collector.settings.templateExtension →
      (collector.expansion first).Agrees (collector.expansion second)) :
    collector.SameTemplates first second module := by
  refine ⟨templateRoot?_congr shaped, fun root found => ?_, included⟩
  rwa [of_templateRoot? found]

/-- The sources of a module are the same where the code in its folder is, and in its framework. -/
theorem SameTemplates.sameSources
    (templates : collector.SameTemplates first second module)
    (shaped : Disk.SameShapeAlong first second
      ((collector.moduleFolder module).join collector.settings.codeFolder))
    (selected : collector.SameSelected first second (collector.moduleFolder module)
      collector.settings.codeExtension
      ((collector.moduleFolder module).join collector.settings.codeFolder))
    (whole : module = collector.settings.framework →
      collector.SameSelected first second (collector.moduleFolder module)
        collector.settings.codeExtension (collector.moduleFolder module)) :
    collector.SameSources first second module := by
  refine ⟨templates, codeRoot?_congr shaped, fun root found => ?_⟩
  rcases of_codeRoot? found with rfl | ⟨framework, rfl⟩
  · exact selected
  · exact whole framework

/-- Templates include the same where the same included templates are found. -/
theorem expansion_agrees_of_found
    (modular : collector.resolver = Include.find? collector.settings)
    (noSlash : '/' ∉ collector.settings.templateExtension)
    (listed : (second.list collector.access collector.settings.base).map
        (List.filter Include.isVisible) =
      (first.list collector.access collector.settings.base).map (List.filter Include.isVisible))
    (found : ∀ module name : Text, Include.IsLookedInto collector.settings first module →
      Path.IsPlainName (Text.encode (name ++ '.' :: collector.settings.templateExtension)) →
      Path.isHiddenName (name ++ '.' :: collector.settings.templateExtension) = false →
      ∀ place content,
        let path := Include.candidate collector.settings name (collector.settings.base.join module)
        second.find path = .ok (place, .file content) ↔
          first.find path = .ok (place, .file content)) :
    (collector.expansion first).Agrees (collector.expansion second) := by
  refine ⟨rfl, rfl, fun text name isIncluded => ?_, fun text name isIncluded path resolved => ?_⟩
  all_goals
    have plainFile := Include.isPlainName_of_mem_names noSlash isIncluded
    have visible := Include.not_isHiddenName_of_mem_names isIncluded
      collector.settings.templateExtension
  · show collector.resolver second collector.access name =
      collector.resolver first collector.access name
    rw [modular]
    refine Include.find?_congr listed fun module looked => ?_
    rw [Bool.eq_iff_iff, Disk.holdsFile_iff, Disk.holdsFile_iff]
    exact exists_congr fun place => exists_congr fun content =>
      found module name looked plainFile visible place content
  · replace resolved : collector.resolver first collector.access name = some path := resolved
    rw [modular] at resolved
    obtain ⟨module, looked, rfl, held⟩ := Include.exists_of_find? resolved
    obtain ⟨place, content, there⟩ := Disk.holdsFile_iff.mp held
    have thereSecond := (found module name looked plainFile visible place content).mpr there
    exact Disk.readLossy_congr_of_find (thereSecond.trans there.symm) collector.access

/-- The code of a module is visited alike where it is the same. -/
theorem visitCode_congr
    {survey : Survey}
    (same : collector.SameSources first second survey.module) :
    collector.visitCode second survey = collector.visitCode first survey := by
  unfold visitCode
  rw [same.codeRoot]
  cases found : collector.codeRoot? first survey.module with
  | none => rfl
  | some root => exact visitFolder_congr (same.code root found) fun _ _ _ => rfl

/-- The templates of a module are visited alike where they are the same and include the same. -/
theorem visitTemplates_congr
    {survey : Survey}
    (same : collector.SameTemplates first second survey.module) :
    collector.visitTemplates second survey = collector.visitTemplates first survey := by
  unfold visitTemplates
  rw [same.templateRoot]
  cases found : collector.templateRoot? first survey.module with
  | none => rfl
  | some root =>
      refine visitFolder_congr (same.templates root found) fun path suffix text => ?_
      have agrees := same.included (Path.noSlash_of_textExtension? suffix)
      exact Include.Setting.harvest_congr agrees _ _ _

/-- The survey of a module is the same where its sources are. -/
theorem survey_congr (same : collector.SameSources first second module) :
    collector.survey second module = collector.survey first module := by
  let start : Survey := { module }
  let begun := start.note (Log.info ("Processing module '".toList ++ module ++ "'".toList))
  have code : collector.visitCode second begun = collector.visitCode first begun :=
    visitCode_congr same
  have named : (collector.visitDeclared (collector.visitCode first begun)).module = module := by
    rw [module_visitDeclared, module_visitCode]
    rfl
  have templates := same.toSameTemplates
  rw [← named] at templates
  have visited := visitTemplates_congr templates
  change reportOverwritings (collector.visitTemplates second
      (collector.visitDeclared (collector.visitCode second begun))) =
    reportOverwritings (collector.visitTemplates first
      (collector.visitDeclared (collector.visitCode first begun)))
  rw [code, visited]

end Collector
end Phrasebook
