import Phrasebook.Proofs.Collection.Modules
import Phrasebook.Proofs.Survey.Sources

/-!
# Outside the folders of tables

Tables lie in folders of their own, and with ordinary names in the settings nothing else is looked
for there: not the markers of modules, not the templates and what they include, and not the code
that lies in a folder of its own.  On two disks that differ in these folders only, the modules are
the same, and surveys differ only for a module that is read as a whole.
-/

namespace Phrasebook

open Text (encode)

/-- A plain name other than that of the folders of tables. -/
structure IsOrdinary (name : Bytes) : Prop extends Path.IsPlainName name where
  /-- It is not the name of the folders of tables. -/
  other : name ≠ encode "lang".toList

/-- The settings call files and folders by ordinary names. -/
structure Settings.AreOrdinary (settings : Settings) : Prop where
  /-- The marker has an ordinary name. -/
  marker : IsOrdinary settings.marker
  /-- The folder of code has an ordinary name. -/
  codeFolder : IsOrdinary settings.codeFolder
  /-- The folder of templates has an ordinary name. -/
  templateFolder : IsOrdinary settings.templateFolder
  /-- The folder of included templates has a plain name. -/
  includeFolder : Path.IsPlainName settings.includeFolder
  /-- The suffix of templates has no slash. -/
  templateExtension : '/' ∉ settings.templateExtension

/-- The settings call the folders of a module and its marker by ordinary names. -/
structure Settings.HaveOrdinaryNames (settings : Settings) : Prop where
  /-- The marker has an ordinary name. -/
  marker : IsOrdinary settings.marker
  /-- The folder of code has an ordinary name. -/
  codeFolder : IsOrdinary settings.codeFolder
  /-- The folder of templates has an ordinary name. -/
  templateFolder : IsOrdinary settings.templateFolder
  /-- The folder of included templates has a plain name. -/
  includeFolder : Path.IsPlainName settings.includeFolder

theorem Settings.AreOrdinary.names
    {settings : Settings}
    (ordinary : settings.AreOrdinary) :
    settings.HaveOrdinaryNames :=
  ⟨ordinary.marker, ordinary.codeFolder, ordinary.templateFolder, ordinary.includeFolder⟩

/-- The settings that are not given are ordinary. -/
theorem Settings.areOrdinary_default : ({} : Settings).AreOrdinary := by
  refine ⟨⟨⟨?_, ?_, ?_, ?_⟩, ?_⟩, ⟨⟨?_, ?_, ?_, ?_⟩, ?_⟩, ⟨⟨?_, ?_, ?_, ?_⟩, ?_⟩,
    ⟨?_, ?_, ?_, ?_⟩, ?_⟩ <;> decide

/-- The location is that of a folder of tables below a base, or lies in one. -/
def InTables (base location : Location) : Prop :=
  ∃ module rest, location = base ++ module :: encode "lang".toList :: rest

theorem not_inTables_base (base : Location) (name : Bytes) : ¬InTables base (base ++ [name]) := by
  rintro ⟨module, rest, same⟩
  simp at same

theorem not_inTables_of_ne
    {name : Bytes}
    (other : name ≠ encode "lang".toList)
    (base : Location)
    (module : Bytes)
    (rest : Location) :
    ¬InTables base (base ++ module :: name :: rest) := by
  rintro ⟨owner, inside, same⟩
  rw [List.append_cancel_left_eq, List.cons.injEq, List.cons.injEq] at same
  exact other same.2.1

/-- Two disks differ in the folders of tables below a base folder only. -/
structure AlikeOutsideTables (base : Path) (first second : Disk) : Prop where
  /-- The working folders are the same. -/
  here : second.here = first.here
  /-- Folders stay. -/
  kept : ∀ folder, first.node? folder = some .folder → second.node? folder = some .folder
  /-- The base is a folder. -/
  found : first.find base = .ok (first.target base, .folder)
  /-- Outside the folders of tables there is the same. -/
  outside : ∀ location, ¬InTables (first.target base) location →
    second.node? location = first.node? location

namespace AlikeOutsideTables

variable
  {base : Path}
  {first second : Disk}
  {module name : Bytes}

theorem along (alike : AlikeOutsideTables base first second) :
    Disk.AlikeAlong first second base :=
  .of_find alike.here alike.found alike.kept

theorem along_module
    (alike : AlikeOutsideTables base first second)
    (plain : Path.IsPlainName module) :
    Disk.AlikeAlong first second (base.join module) :=
  alike.along.join plain (alike.outside _ (not_inTables_base _ module))

theorem along_inside
    (alike : AlikeOutsideTables base first second)
    (plain : Path.IsPlainName module)
    (ordinary : IsOrdinary name) :
    Disk.AlikeAlong first second ((base.join module).join name) := by
  refine (alike.along_module plain).join ordinary.toIsPlainName ?_
  rw [Disk.target_join _ _ plain, List.append_assoc]
  exact alike.outside _ (not_inTables_of_ne ordinary.other _ module [])

/-- Below a folder of a module that is none of tables everything is the same. -/
theorem node?_inside
    (alike : AlikeOutsideTables base first second)
    (plain : Path.IsPlainName module)
    (ordinary : IsOrdinary name)
    (rest : Location) :
    second.node? (first.target ((base.join module).join name) ++ rest) =
      first.node? (first.target ((base.join module).join name) ++ rest) := by
  rw [Disk.target_join_join first base plain ordinary.toIsPlainName, List.append_assoc]
  exact alike.outside _ (not_inTables_of_ne ordinary.other _ module rest)

theorem list_congr
    (alike : AlikeOutsideTables base first second)
    (access : Access) :
    second.list access base = first.list access base :=
  Disk.list_congr alike.along.sameShape
    (fun name => congrArg Option.isSome (alike.outside _ (not_inTables_base _ name))) access

end AlikeOutsideTables

namespace Collector

variable
  {collector : Collector}
  {first second : Disk}
  {module : Text}

/-- The same modules are collected. -/
theorem modules_congr
    (ordinary : collector.settings.AreOrdinary)
    (alike : AlikeOutsideTables collector.settings.base first second) :
    collector.modules second none = collector.modules first none := by
  have candidates : collector.candidates second none = collector.candidates first none := by
    unfold candidates
    rw [alike.list_congr]
  refine modules_congr_of_isModule candidates fun name plain => ?_
  simp only [isModule, moduleFolder]
  rw [Disk.holdsFolder_congr (alike.along_module plain),
    Disk.holdsFile_congr (alike.along_inside plain ordinary.marker)]

variable (alike : AlikeOutsideTables collector.settings.base first second)

include alike

/-- Everything below a folder of a module that is none of tables is alike. -/
theorem alikeBelow_inside
    (plain : Path.IsPlainName module)
    {name : Bytes}
    (ordinary : IsOrdinary name)
    (extension : Text)
    (keep : Path → Bool) :
    collector.AlikeBelow first second (collector.moduleFolder module) extension keep
      ((collector.moduleFolder module).join name) :=
  .of_same (alike.along_inside plain ordinary) (alike.node?_inside plain ordinary)

section Surveys

variable (names : collector.settings.HaveOrdinaryNames)

include names

theorem along_candidate
    {name : Text}
    (plain : Path.IsPlainName module)
    (plainFile :
      Path.IsPlainName (encode (name ++ '.' :: collector.settings.templateExtension))) :
    Disk.AlikeAlong first second
      (Include.candidate collector.settings name (collector.settings.base.join module)) := by
  have inside := alike.node?_inside plain names.templateFolder
  refine ((alike.along_inside plain names.templateFolder).join names.includeFolder
    (inside _)).join plainFile ?_
  rw [Disk.target_join _ _ names.includeFolder, List.append_assoc]
  exact inside _

/-- The lookup of includes does not look into folders of tables. -/
theorem expansion_agrees
    (modular : collector.resolver = Include.find? collector.settings)
    (noSlash : '/' ∉ collector.settings.templateExtension) :
    (collector.expansion first).Agrees (collector.expansion second) := by
  refine expansion_agrees_of_found modular noSlash (by rw [alike.list_congr collector.access])
    fun module name looked plainFile _ place content => ?_
  intro path
  have along : Disk.AlikeAlong first second path :=
    along_candidate alike names looked.plain plainFile
  rw [Disk.find_congr along]

/-- The folder that the code of a module is read from is alike, if the module as a whole is. -/
theorem alikeBelow_codeRoot
    (plain : Path.IsPlainName module)
    {keep : Path → Bool}
    (own : module = collector.settings.framework →
      collector.AlikeBelow first second (collector.moduleFolder module)
        collector.settings.codeExtension keep (collector.moduleFolder module))
    {root : Path}
    (found : collector.codeRoot? first module = some root) :
    collector.AlikeBelow first second (collector.moduleFolder module)
      collector.settings.codeExtension keep root := by
  rcases of_codeRoot? found with rfl | ⟨framework, rfl⟩
  · exact alikeBelow_inside alike plain names.codeFolder _ _
  · exact own framework

/-- Folders of tables hold none of the templates of a module. -/
theorem sameTemplates_of_outside
    (modular : collector.resolver = Include.find? collector.settings)
    (plain : Path.IsPlainName module) :
    collector.SameTemplates first second module :=
  sameTemplates_of_sameSelected (alike.along_inside plain names.templateFolder).sameShape
    (.of_same (alike.along_inside plain names.templateFolder)
      (alike.node?_inside plain names.templateFolder))
    (expansion_agrees alike names modular)

/-- The sources of a survey are the same where the module as a whole is alike. -/
theorem sameSources_of_outside
    (modular : collector.resolver = Include.find? collector.settings)
    (plain : Path.IsPlainName module)
    (own : module = collector.settings.framework →
      collector.SameSelected first second (collector.moduleFolder module)
        collector.settings.codeExtension (collector.moduleFolder module)) :
    collector.SameSources first second module :=
  (sameTemplates_of_outside alike names modular plain).sameSources
    (alike.along_inside plain names.codeFolder).sameShape
    (.of_same (alike.along_inside plain names.codeFolder)
      (alike.node?_inside plain names.codeFolder))
    own

/-- The visits of the code of a module agree, if the files that are left out are silent. -/
theorem visitCode_agrees
    {survey other : Survey}
    (agrees : survey.Agrees other)
    (plain : Path.IsPlainName survey.module)
    {keep : Path → Bool}
    (own : survey.module = collector.settings.framework →
      collector.AlikeBelow first second (collector.moduleFolder survey.module)
        collector.settings.codeExtension keep (collector.moduleFolder survey.module))
    (silent : ∀ disk, disk = first ∨ disk = second →
      ∀ path ∈ collector.codeFiles disk survey.module, keep path = false →
        Survey.IsSilent disk collector.access (fun _ text => collector.harvestCode text) path) :
    (collector.visitCode first survey).Agrees (collector.visitCode second other) := by
  have same := codeRoot?_congr (alike.along_inside plain names.codeFolder).sameShape
  unfold visitCode
  rw [agrees.module, same]
  cases found : collector.codeRoot? first survey.module with
  | none => exact agrees
  | some root =>
      have below := alikeBelow_codeRoot alike names plain own found
      refine visitFolder_agrees agrees below fun disk which files selected path member => ?_
      have rooted : collector.codeRoot? disk survey.module = some root := by
        rcases which with rfl | rfl
        · exact found
        · rw [same, found]
      refine silent disk which path ?_
      rw [codeFiles, selectedBelow, rooted, Option.bind_some, selected]
      exact member

/-- The surveys of a module agree, if the files that are left out are silent. -/
theorem survey_agrees
    (modular : collector.resolver = Include.find? collector.settings)
    (plain : Path.IsPlainName module)
    {keep : Path → Bool}
    (own : module = collector.settings.framework →
      collector.AlikeBelow first second (collector.moduleFolder module)
        collector.settings.codeExtension keep (collector.moduleFolder module))
    (silent : ∀ disk, disk = first ∨ disk = second →
      ∀ path ∈ collector.codeFiles disk module, keep path = false →
        Survey.IsSilent disk collector.access (fun _ text => collector.harvestCode text) path) :
    (collector.survey first module).Agrees (collector.survey second module) := by
  let start : Survey := { module }
  let begun := start.note (Log.info ("Processing module '".toList ++ module ++ "'".toList))
  have withCode := visitCode_agrees alike names (.refl begun) plain own silent
  have withDeclared := visitDeclared_agrees withCode collector
  have withTemplates := visitTemplates_agrees withDeclared collector first
  have same : collector.visitTemplates second
        (collector.visitDeclared (collector.visitCode second begun)) =
      collector.visitTemplates first
        (collector.visitDeclared (collector.visitCode second begun)) := by
    apply visitTemplates_congr
    rw [module_visitDeclared, module_visitCode]
    exact sameTemplates_of_outside alike names modular plain
  rw [← same] at withTemplates
  exact reportOverwritings_agrees withTemplates

end Surveys

end Collector
end Phrasebook
