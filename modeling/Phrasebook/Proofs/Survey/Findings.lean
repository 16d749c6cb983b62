import Phrasebook.Proofs.Finding
import Phrasebook.Survey

/-!
# What a survey finds

A survey merges the harvests of its files, the maps that are declared and the expansions of its
templates into one map.  Nothing of this nesting shows in the result: the findings of the code, of
the declarations and of the templates follow one another in one sequence, and the survey has the
last definition of every key, counts the files that it could read, and counts a warning for every
other file and for everything that was left out.
-/

namespace Phrasebook

/-- A text can be read at the path. -/
def Disk.canRead (disk : Disk) (access : Access) (path : Path) : Bool :=
  (disk.readLossy access path).toOption.isSome

/-- What is found in the file at a path, if it can be read. -/
def Disk.findingsIn
    (disk : Disk)
    (access : Access)
    (found : Path → Text → List Finding)
    (path : Path) :
    List Finding :=
  match disk.readLossy access path with
  | .error _ => []
  | .ok text => found path text

namespace Collector

/-- The selected files below the folder of a module, if there is a folder that can be walked. -/
def selectedBelow
    (collector : Collector)
    (disk : Disk)
    (module extension : Text)
    (root : Option Path) :
    List Path :=
  (root.bind fun root =>
    (collector.filesWithExtension disk (collector.moduleFolder module) root
      extension).toOption).getD []

/-- The files of code that a survey visits, in order. -/
def codeFiles (collector : Collector) (disk : Disk) (module : Text) : List Path :=
  collector.selectedBelow disk module collector.settings.codeExtension
    (collector.codeRoot? disk module)

/-- The templates that a survey visits, in order. -/
def templateFiles (collector : Collector) (disk : Disk) (module : Text) : List Path :=
  collector.selectedBelow disk module collector.settings.templateExtension
    (collector.templateRoot? disk module)

/-- What is found in code, where keys name their namespace. -/
def findingsOfCode (collector : Collector) (disk : Disk) (module : Text) : List Finding :=
  (collector.codeFiles disk module).flatMap
    (disk.findingsIn collector.access fun _ text =>
      Finding.ofText collector.settings.function none text)

/-- What is declared for a module, map by map. -/
def findingsOfDeclared (collector : Collector) (module : Text) : List Finding :=
  (collector.declared.mapsOf module).flatMap Finding.ofMap

/-- What is found in templates and behind their directives; their names are their namespaces. -/
def findingsOfTemplates (collector : Collector) (disk : Disk) (module : Text) : List Finding :=
  (collector.templateFiles disk module).flatMap
    (disk.findingsIn collector.access fun path text =>
      (collector.expansion disk).findings [path.components] (path.textName?.getD []) text)

/-- Everything that is found for a module, in order. -/
def findings (collector : Collector) (disk : Disk) (module : Text) : List Finding :=
  collector.findingsOfCode disk module ++ collector.findingsOfDeclared module ++
    collector.findingsOfTemplates disk module

end Collector

/-- A survey tells of the files that it has visited and of the findings in them. -/
structure Survey.Tells
    (survey : Survey)
    (disk : Disk)
    (access : Access)
    (files : List Path)
    (findings : List Finding) : Prop where
  /-- The last definition of a key is what the survey has for it. -/
  entities : ∀ key, survey.entities.get? key = Finding.last? findings key
  /-- The files that could be read are counted. -/
  filesScanned : survey.filesScanned = files.countP (disk.canRead access)
  /-- There is a warning for each other file and for each omission. -/
  warnings : survey.warnings =
    files.countP (fun path => !disk.canRead access path) + (Finding.warnings findings).length

namespace Survey
namespace Tells

variable
  {survey : Survey}
  {disk : Disk}
  {access : Access}
  {files : List Path}
  {findings : List Finding}

theorem start (module : Text) (disk : Disk) (access : Access) :
    Survey.Tells { module } disk access [] [] :=
  ⟨fun _ => rfl, rfl, rfl⟩

/-- Lines of the log are nothing that is told. -/
theorem noteAll
    (tells : survey.Tells disk access files findings)
    (lines : List Log.Line) :
    (survey.noteAll lines).Tells disk access files findings :=
  ⟨tells.entities, tells.filesScanned, tells.warnings⟩

theorem note
    (tells : survey.Tells disk access files findings)
    (line : Log.Line) :
    (survey.note line).Tells disk access files findings :=
  tells.noteAll [line]

/-- A map that is merged in brings its definitions. -/
theorem merge
    (tells : survey.Tells disk access files findings)
    {entities : Entity.Map}
    {others : List Finding}
    (defines : ∀ key, entities.get? key = Finding.last? others key)
    (complete : Finding.warnings others = [])
    (overwritten : Nat) :
    (survey.merge entities overwritten).Tells disk access files (findings ++ others) := by
  refine ⟨fun key => ?_, tells.filesScanned, ?_⟩
  · rw [Finding.last?_append, ← tells.entities, ← defines]
    exact Entity.Map.get?_merge survey.entities entities key
  · rw [Finding.warnings_append, complete, List.append_nil]
    exact tells.warnings

/-- A file that is visited brings what is found in it, or a warning. -/
theorem visit
    (tells : survey.Tells disk access files findings)
    {harvest : Path → Text → Harvest}
    {found : Path → Text → List Finding}
    (harvestTells : ∀ path text, (harvest path text).Tells (found path text))
    (path : Path) :
    (survey.visit disk access harvest path).Tells disk access (files ++ [path])
      (findings ++ disk.findingsIn access found path) := by
  unfold Survey.visit Disk.findingsIn
  cases read : disk.readLossy access path with
  | error cause =>
      have unreadable : disk.canRead access path = false := by
        rw [Disk.canRead, read]
        rfl
      refine ⟨fun key => ?_, ?_, ?_⟩
      · rw [List.append_nil, ← tells.entities]
        rfl
      · simp [Survey.note, tells.filesScanned, unreadable]
      · simp [Survey.note, tells.warnings, unreadable]
        omega
  | ok text =>
      have readable : disk.canRead access path = true := by
        rw [Disk.canRead, read]
        rfl
      refine ⟨fun key => ?_, ?_, ?_⟩
      · rw [Finding.last?_append, ← tells.entities, ← (harvestTells path text).entities]
        exact Entity.Map.get?_merge survey.entities (harvest path text).entities key
      · simp [Survey.absorb, Survey.merge, tells.filesScanned, readable]
      · simp [Survey.absorb, tells.warnings, readable, (harvestTells path text).warnings]
        omega

/-- Files that are visited one after the other bring their findings in this order. -/
theorem foldl_visit
    (tells : survey.Tells disk access files findings)
    {harvest : Path → Text → Harvest}
    {found : Path → Text → List Finding}
    (harvestTells : ∀ path text, (harvest path text).Tells (found path text))
    (visited : List Path) :
    (visited.foldl (Survey.visit disk access harvest) survey).Tells disk access
      (files ++ visited) (findings ++ visited.flatMap (disk.findingsIn access found)) := by
  induction visited generalizing survey files findings with
  | nil => simpa using tells
  | cons path visited ih =>
      have later := ih (tells.visit harvestTells path)
      rwa [List.append_assoc, List.append_assoc, ← List.flatMap_cons] at later

end Tells

@[simp]
theorem module_foldl_visit
    (disk : Disk)
    (access : Access)
    (harvest : Path → Text → Harvest)
    (files : List Path)
    (survey : Survey) :
    (files.foldl (Survey.visit disk access harvest) survey).module = survey.module := by
  induction files generalizing survey with
  | nil => rfl
  | cons path files ih =>
      rw [List.foldl_cons, ih, Survey.visit]
      split <;> rfl

end Survey

namespace Collector

variable
  {collector : Collector}
  {disk : Disk}
  {survey : Survey}
  {files : List Path}
  {findings : List Finding}

@[simp]
theorem module_visitFolder
    (collector : Collector)
    (disk : Disk)
    (extension : Text)
    (harvest : Path → Text → Harvest)
    (root : Path)
    (survey : Survey) :
    (collector.visitFolder disk extension harvest root survey).module = survey.module := by
  simp only [visitFolder]
  split
  · rfl
  · exact Survey.module_foldl_visit disk collector.access harvest _ (survey.noteAll _)

@[simp]
theorem module_visitCode (collector : Collector) (disk : Disk) (survey : Survey) :
    (collector.visitCode disk survey).module = survey.module := by
  unfold visitCode
  split
  · rfl
  · rw [module_visitFolder]

@[simp]
theorem module_visitDeclared (collector : Collector) (survey : Survey) :
    (collector.visitDeclared survey).module = survey.module :=
  rfl

@[simp]
theorem module_visitTemplates (collector : Collector) (disk : Disk) (survey : Survey) :
    (collector.visitTemplates disk survey).module = survey.module := by
  unfold visitTemplates
  split
  · rfl
  · rw [module_visitFolder]

/-- A survey is that of its module. -/
@[simp]
theorem module_survey (collector : Collector) (disk : Disk) (module : Text) :
    (collector.survey disk module).module = module := by
  unfold survey reportOverwritings
  simp only
  split <;> simp [Survey.note]

/-- The selected files below a folder bring their findings. -/
theorem visitFolder_tells
    (tells : survey.Tells disk collector.access files findings)
    {extension : Text}
    {harvest : Path → Text → Harvest}
    {found : Path → Text → List Finding}
    (harvestTells : ∀ path text, (harvest path text).Tells (found path text))
    (root : Path) :
    (collector.visitFolder disk extension harvest root survey).Tells disk collector.access
      (files ++ collector.selectedBelow disk survey.module extension (some root))
      (findings ++ (collector.selectedBelow disk survey.module extension (some root)).flatMap
        (disk.findingsIn collector.access found)) := by
  simp only [visitFolder, selectedBelow, Option.bind_some]
  cases collector.filesWithExtension disk (collector.moduleFolder survey.module) root extension with
  | error cause =>
      simp only [Except.toOption, Option.getD_none, List.append_nil, List.flatMap_nil]
      exact tells.note _
  | ok selected => exact (tells.noteAll _).foldl_visit harvestTells selected

theorem visitCode_tells (tells : survey.Tells disk collector.access files findings) :
    (collector.visitCode disk survey).Tells disk collector.access
      (files ++ collector.codeFiles disk survey.module)
      (findings ++ collector.findingsOfCode disk survey.module) := by
  unfold visitCode findingsOfCode codeFiles
  cases collector.codeRoot? disk survey.module with
  | none => simpa [selectedBelow] using tells
  | some root =>
      exact visitFolder_tells tells (fun _ text => Harvest.ofText_tells _ text none) root

theorem visitTemplates_tells (tells : survey.Tells disk collector.access files findings) :
    (collector.visitTemplates disk survey).Tells disk collector.access
      (files ++ collector.templateFiles disk survey.module)
      (findings ++ collector.findingsOfTemplates disk survey.module) := by
  unfold visitTemplates findingsOfTemplates templateFiles
  cases collector.templateRoot? disk survey.module with
  | none => simpa [selectedBelow] using tells
  | some root =>
      refine visitFolder_tells tells (fun path text => ?_) root
      exact (collector.expansion disk).whole_tells [path.components]
        ⟨path.components, path.textName?.getD [], text⟩

/-- Maps that are merged one after the other define what their entries define in this order. -/
theorem get?_mergeAll
    (maps : List Entity.Map)
    (state : Entity.Map × Nat)
    (key : Text) :
    (Declared.mergeAll state maps).1.get? key =
      (Finding.last? (maps.flatMap Finding.ofMap) key).or (state.1.get? key) := by
  induction maps generalizing state with
  | nil => rfl
  | cons map maps ih =>
      have later := ih ((state.1.merge map).1, state.2 + (state.1.merge map).2)
      rw [Entity.Map.get?_merge] at later
      rw [List.flatMap_cons, Finding.last?_append, Finding.last?_ofMap, Option.or_assoc]
      exact later

theorem warnings_findingsOfDeclared (collector : Collector) (module : Text) :
    Finding.warnings (collector.findingsOfDeclared module) = [] := by
  unfold findingsOfDeclared
  induction collector.declared.mapsOf module with
  | nil => rfl
  | cons map maps ih =>
      rw [List.flatMap_cons, Finding.warnings_append, Finding.warnings_ofMap, ih, List.append_nil]

theorem visitDeclared_tells (tells : survey.Tells disk collector.access files findings) :
    (collector.visitDeclared survey).Tells disk collector.access files
      (findings ++ collector.findingsOfDeclared survey.module) := by
  refine tells.merge (fun key => ?_) (warnings_findingsOfDeclared collector survey.module) _
  exact (get?_mergeAll _ _ key).trans (Option.or_none)

theorem reportOverwritings_tells (tells : survey.Tells disk collector.access files findings) :
    (reportOverwritings survey).Tells disk collector.access files findings := by
  unfold reportOverwritings
  split
  · exact tells
  · exact tells.note _

/-- A survey tells of everything that is found for its module. -/
theorem survey_tells (collector : Collector) (disk : Disk) (module : Text) :
    (collector.survey disk module).Tells disk collector.access
      (collector.codeFiles disk module ++ collector.templateFiles disk module)
      (collector.findings disk module) := by
  have begun := (Survey.Tells.start module disk collector.access).note
    (Log.info ("Processing module '".toList ++ module ++ "'".toList))
  have surveyed := visitTemplates_tells (visitDeclared_tells (visitCode_tells begun))
  rw [module_visitDeclared, module_visitCode] at surveyed
  exact reportOverwritings_tells surveyed

/--
A survey has the last definition of every key among everything that is found for the module, and
nothing else; its counts are those of the files and of what was left out.
-/
theorem survey_keeps_last_definitions
    (collector : Collector)
    (disk : Disk)
    (module : Text) :
    let survey := collector.survey disk module
    let findings := collector.findings disk module
    let files := collector.codeFiles disk module ++ collector.templateFiles disk module
    (∀ key record,
        survey.entities.get? key = some record ↔ Finding.IsLast findings key record) ∧
      survey.filesScanned = files.countP (disk.canRead collector.access) ∧
      survey.warnings =
        files.countP (fun path => !disk.canRead collector.access path) +
          (Finding.warnings findings).length := by
  intro survey findings files
  have tells := survey_tells collector disk module
  refine ⟨fun key record => ?_, tells.filesScanned, tells.warnings⟩
  rw [tells.entities, Finding.last?_eq_some_iff]

end Collector
end Phrasebook
