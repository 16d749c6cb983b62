import Phrasebook.Proofs.Include.Spared
import Phrasebook.Proofs.Survey.Sources

/-!
# Unreadable files

A file that cannot be read is passed over: a survey counts a warning and goes on as if the file were
not there.  So the survey on a disk without some of the unreadable files is the same, but for one
warning less for each time that one of them would be visited.  The run with the files is followed
step by step by the run without them, which stands still where a file is passed over.
-/

namespace Phrasebook

open Outcome
open Text (encode)

namespace Survey

/-- A survey that is like another one, but has some warnings more. -/
structure AheadBy (count : Nat) (survey other : Survey) : Prop where
  /-- They are about the same module. -/
  module : survey.module = other.module
  /-- They have the same entities. -/
  entities : survey.entities = other.entities
  /-- They count the same overwritings. -/
  overwritten : survey.overwritten = other.overwritten
  /-- They count the same files. -/
  filesScanned : survey.filesScanned = other.filesScanned
  /-- One of them counts more warnings. -/
  warnings : survey.warnings = other.warnings + count

namespace AheadBy

variable
  {count : Nat}
  {survey other : Survey}

theorem refl (survey : Survey) : AheadBy 0 survey survey :=
  ⟨rfl, rfl, rfl, rfl, rfl⟩

/-- Lines of the log make no difference. -/
theorem noteAll (ahead : AheadBy count survey other) (lines otherLines : List Log.Line) :
    AheadBy count (survey.noteAll lines) (other.noteAll otherLines) :=
  ⟨ahead.module, ahead.entities, ahead.overwritten, ahead.filesScanned, ahead.warnings⟩

theorem note (ahead : AheadBy count survey other) (line otherLine : Log.Line) :
    AheadBy count (survey.note line) (other.note otherLine) :=
  ahead.noteAll [line] [otherLine]

theorem merge
    (ahead : AheadBy count survey other)
    (entities : Entity.Map)
    (overwritten : Nat) :
    AheadBy count (survey.merge entities overwritten) (other.merge entities overwritten) := by
  refine ⟨ahead.module, ?_, ?_, ahead.filesScanned, ahead.warnings⟩
  · simp only [Survey.merge, ahead.entities]
  · simp only [Survey.merge, ahead.entities, ahead.overwritten]

variable
  {disk without : Disk}
  {access : Access}
  {harvest otherHarvest : Path → Text → Harvest}
  {path : Path}

/-- A file that is the same for both is visited by both. -/
theorem visit
    (ahead : AheadBy count survey other)
    (read : without.readLossy access path = disk.readLossy access path)
    (harvested : ∀ text, otherHarvest path text = harvest path text) :
    AheadBy count (survey.visit disk access harvest path)
      (other.visit without access otherHarvest path) := by
  unfold Survey.visit
  rw [read]
  cases disk.readLossy access path with
  | error cause =>
      refine ⟨ahead.module, ahead.entities, ahead.overwritten, ahead.filesScanned, ?_⟩
      simp only [Survey.note, ahead.warnings]
      omega
  | ok text =>
      simp only [harvested]
      have merged := ahead.merge (harvest path text).entities (harvest path text).overwritten
      refine ⟨merged.module, merged.entities, merged.overwritten,
        congrArg (· + 1) ahead.filesScanned, ?_⟩
      simp only [Survey.absorb, ahead.warnings]
      omega

/-- A file that cannot be read brings a warning and nothing else. -/
theorem pass
    (ahead : AheadBy count survey other)
    (unreadable : disk.canRead access path = false) :
    AheadBy (count + 1) (survey.visit disk access harvest path) other := by
  unfold Survey.visit
  cases read : disk.readLossy access path with
  | error cause =>
      refine ⟨ahead.module, ahead.entities, ahead.overwritten, ahead.filesScanned, ?_⟩
      simp only [Survey.note, ahead.warnings]
      omega
  | ok text =>
      rw [Disk.canRead, read] at unreadable
      cases unreadable

/-- Unreadable files can be left out of a visit, for one warning less for each of them. -/
theorem foldl_visit
    (ahead : AheadBy count survey other)
    {gone : Path → Bool}
    {files : List Path}
    (unreadable : ∀ path ∈ files, gone path = true → disk.canRead access path = false)
    (read : ∀ path ∈ files, gone path = false →
      without.readLossy access path = disk.readLossy access path)
    (harvested : ∀ path ∈ files, ∀ text, otherHarvest path text = harvest path text) :
    AheadBy (count + files.countP gone)
      (files.foldl (Survey.visit disk access harvest) survey)
      ((files.filter fun path => !gone path).foldl (Survey.visit without access otherHarvest)
        other) := by
  induction files generalizing count survey other with
  | nil => exact ahead
  | cons path files ih =>
      obtain ⟨unreadableHere, unreadable⟩ := List.forall_mem_cons.mp unreadable
      obtain ⟨readHere, read⟩ := List.forall_mem_cons.mp read
      obtain ⟨harvestedHere, harvested⟩ := List.forall_mem_cons.mp harvested
      cases isGone : gone path with
      | true =>
          have passed : AheadBy (count + 1) (survey.visit disk access harvest path) other :=
            ahead.pass (unreadableHere isGone)
          rw [List.filter_cons_of_neg (by simp [isGone]), List.countP_cons_of_pos isGone,
            Nat.add_comm _ 1, ← Nat.add_assoc]
          exact ih passed unreadable read harvested
      | false =>
          rw [List.filter_cons_of_pos (by simp [isGone]),
            List.countP_cons_of_neg (by simp [isGone])]
          exact ih (ahead.visit (readHere isGone) harvestedHere) unreadable read harvested

end AheadBy
end Survey

namespace Collector

variable
  {collector : Collector}
  {disk : Disk}
  {gone : Location → Bool}
  {module extension : Text}
  {root : Path}

/-- The selected files are those that are still there. -/
theorem filesWithExtension_withoutFiles
    (collector : Collector)
    (disk : Disk)
    (gone : Location → Bool)
    (folder root : Path)
    (extension : Text) :
    collector.filesWithExtension (disk.withoutFiles gone) folder root extension =
      (collector.filesWithExtension disk folder root extension).map
        (List.filter fun path => !gone (disk.target path)) := by
  unfold filesWithExtension
  rw [Disk.walk_withoutFiles]
  cases disk.walk collector.access root with
  | error cause => rfl
  | ok walk => exact congrArg Except.ok (List.filter_comm _ _ walk.files)

/-- A selected file that is still there has the same text. -/
theorem readLossy_withoutFiles_of_mem
    {folder : Path}
    {files : List Path}
    (selected : collector.filesWithExtension disk folder root extension = .ok files)
    {path : Path}
    (member : path ∈ files)
    (stays : gone (disk.target path) = false) :
    (disk.withoutFiles gone).readLossy collector.access path =
      disk.readLossy collector.access path := by
  obtain ⟨walked, reached, -⟩ := map_eq_ok_iff.mp selected
  cases held : disk.holdsFolder root with
  | false =>
      rw [Disk.walk_of_not_holdsFolder held] at reached
      obtain ⟨_, -, failed⟩ := bind_eq_ok_iff.mp reached
      cases failed
  | true =>
      obtain ⟨location, found⟩ := Disk.exists_find_of_holdsFolder held
      obtain rfl : location = disk.target root := (Disk.find_eq_ok found).1
      obtain ⟨-, names, below, rfl⟩ := exists_of_mem_filesWithExtension selected member
      rw [Disk.target_foldl_join disk root (Disk.isPlainName_of_mem_filesBelow below)] at stays
      exact Disk.readLossy_withoutFiles found below stays

section Folders

variable
  {count : Nat}
  {survey other : Survey}
  {harvest otherHarvest : Path → Text → Harvest}

/-- The files below a folder are visited alike without those that cannot be read. -/
theorem visitFolder_aheadBy
    (ahead : survey.AheadBy count other)
    (unreadable : ∀ path ∈ collector.selectedBelow disk survey.module extension (some root),
      gone (disk.target path) = true → disk.canRead collector.access path = false)
    (harvested : ∀ path, path.textExtension? = some extension →
      ∀ text, otherHarvest path text = harvest path text) :
    Survey.AheadBy
      (count + (collector.selectedBelow disk survey.module extension (some root)).countP
        fun path => gone (disk.target path))
      (collector.visitFolder disk extension harvest root survey)
      (collector.visitFolder (disk.withoutFiles gone) extension otherHarvest root other) := by
  simp only [visitFolder, selectedBelow, Option.bind_some, ← ahead.module,
    filesWithExtension_withoutFiles] at unreadable ⊢
  cases selected : collector.filesWithExtension disk (collector.moduleFolder survey.module) root
    extension with
  | error cause => exact ahead.note _ _
  | ok files =>
      rw [selected] at unreadable
      have noted := ahead.noteAll (collector.closedLines disk root)
        (collector.closedLines (disk.withoutFiles gone) root)
      refine noted.foldl_visit unreadable (fun path member stays => ?_) fun path member => ?_
      · exact readLossy_withoutFiles_of_mem selected member stays
      · have isSelected := (exists_of_mem_filesWithExtension selected member).1
        rw [Collector.isSelected, Bool.and_eq_true, decide_eq_true_eq] at isSelected
        exact harvested path isSelected.1

/-- The code of a module is visited alike without what cannot be read. -/
theorem visitCode_aheadBy
    (ahead : survey.AheadBy count other)
    (unreadable : ∀ path ∈ collector.codeFiles disk survey.module,
      gone (disk.target path) = true → disk.canRead collector.access path = false) :
    Survey.AheadBy
      (count + (collector.codeFiles disk survey.module).countP fun path => gone (disk.target path))
      (collector.visitCode disk survey) (collector.visitCode (disk.withoutFiles gone) other) := by
  have sameRoot : collector.codeRoot? (disk.withoutFiles gone) other.module =
      collector.codeRoot? disk survey.module := by
    simp only [codeRoot?, Disk.holdsFolder_withoutFiles, ahead.module]
  unfold visitCode codeFiles at *
  rw [sameRoot]
  cases found : collector.codeRoot? disk survey.module with
  | none => exact ahead
  | some root =>
      rw [found] at unreadable
      exact visitFolder_aheadBy ahead unreadable fun _ _ _ => rfl

/-- Templates include the same without files that the lookup of includes can do without. -/
theorem expansion_agrees_withoutFiles
    (modular : collector.resolver = Include.find? collector.settings)
    (spares : Include.Spares collector.settings disk collector.access gone) :
    (collector.expansion disk).Agrees (collector.expansion (disk.withoutFiles gone)) := by
  refine ⟨rfl, rfl, fun text name included => ?_, fun text name included path resolved => ?_⟩
  · show collector.resolver (disk.withoutFiles gone) collector.access name =
      collector.resolver disk collector.access name
    rw [modular]
    exact Include.find?_withoutFiles spares included
  · replace resolved : collector.resolver disk collector.access name = some path := resolved
    rw [modular] at resolved
    obtain ⟨_, -, -, held⟩ := Include.exists_of_find? resolved
    obtain ⟨place, content, there⟩ := Disk.holdsFile_iff.mp held
    obtain rfl : place = disk.target path := (Disk.find_eq_ok there).1
    have stays := spares.missed text name included path resolved
    have thereStill := Disk.find_withoutFiles_iff.mpr ⟨there, .inr stays⟩
    exact Disk.readLossy_congr_of_find (thereStill.trans there.symm) collector.access

/-- The templates of a module are visited alike without what cannot be read. -/
theorem visitTemplates_aheadBy
    (ahead : survey.AheadBy count other)
    (unreadable : ∀ path ∈ collector.templateFiles disk survey.module,
      gone (disk.target path) = true → disk.canRead collector.access path = false)
    (agrees : (collector.expansion disk).Agrees (collector.expansion (disk.withoutFiles gone))) :
    Survey.AheadBy
      (count +
        (collector.templateFiles disk survey.module).countP fun path => gone (disk.target path))
      (collector.visitTemplates disk survey)
      (collector.visitTemplates (disk.withoutFiles gone) other) := by
  have sameRoot : collector.templateRoot? (disk.withoutFiles gone) other.module =
      collector.templateRoot? disk survey.module := by
    simp only [templateRoot?, Disk.holdsFolder_withoutFiles, ahead.module]
  unfold visitTemplates templateFiles at *
  rw [sameRoot]
  cases found : collector.templateRoot? disk survey.module with
  | none => exact ahead
  | some root =>
      rw [found] at unreadable
      refine visitFolder_aheadBy ahead unreadable fun path _ text => ?_
      exact Include.Setting.harvest_congr agrees _ _ _

theorem visitDeclared_aheadBy
    (collector : Collector)
    (ahead : survey.AheadBy count other) :
    Survey.AheadBy count (collector.visitDeclared survey) (collector.visitDeclared other) := by
  unfold visitDeclared
  rw [ahead.module]
  exact ahead.merge _ _

theorem reportOverwritings_aheadBy (ahead : survey.AheadBy count other) :
    Survey.AheadBy count (reportOverwritings survey) (reportOverwritings other) := by
  unfold reportOverwritings
  rw [ahead.overwritten]
  split
  · exact ahead
  · exact ahead.note _ _

end Folders

/-- Selected files lie at different locations. -/
theorem nodup_map_target_selectedBelow
    (collector : Collector)
    (disk : Disk)
    (module extension : Text)
    (root : Option Path) :
    ((collector.selectedBelow disk module extension root).map disk.target).Nodup := by
  unfold selectedBelow
  cases root with
  | none => exact List.nodup_nil
  | some root =>
      rw [Option.bind_some]
      cases selected : collector.filesWithExtension disk (collector.moduleFolder module) root
        extension with
      | error cause => exact List.nodup_nil
      | ok files =>
          obtain ⟨walked, reached, rfl⟩ := map_eq_ok_iff.mp selected
          exact (Disk.nodup_map_target_walk reached).sublist (List.filter_sublist.map disk.target)

/-- Files of a module that cannot be read, and to which no directive leads. -/
structure IsPassedOver
    (collector : Collector)
    (disk : Disk)
    (module : Text)
    (gone : Location → Bool) : Prop where
  /-- Where they are selected, they cannot be read. -/
  unreadable : ∀ path ∈ collector.codeFiles disk module ++ collector.templateFiles disk module,
    gone (disk.target path) = true → disk.canRead collector.access path = false
  /-- No directive leads to them. -/
  missed : ∀ text, ∀ name ∈ Include.names text, ∀ path,
    collector.resolver disk collector.access name = some path → gone (disk.target path) = false

/-- Unreadable files are passed over if no directive can stand for their names. -/
theorem IsPassedOver.of_unnamed
    (modular : collector.resolver = Include.find? collector.settings)
    (noSlash : '/' ∉ collector.settings.templateExtension)
    (others : ∀ location name, gone location = true →
      (∀ char ∈ name, Include.isNameChar char = true) →
        location.getLast? ≠ some (encode (name ++ '.' :: collector.settings.templateExtension)))
    (unreadable : ∀ path ∈ collector.codeFiles disk module ++ collector.templateFiles disk module,
      gone (disk.target path) = true → disk.canRead collector.access path = false) :
    collector.IsPassedOver disk module gone where
  unreadable := unreadable
  missed := fun _ _ included _ found =>
    Include.gone_eq_false_of_find? noSlash others included (modular ▸ found)

/--
Files of a module that cannot be read are passed over: without them, on a disk with the same
folders, a survey has the same entities and counts the same overwritings and the same files.  It
counts one warning less for each of the files that is selected as code, and for each that is
selected as a template; neither selection has a file twice.  The files must not be included
anywhere, for a directive would then lead to another file, or nowhere.  And where the settings name
a folder of templates by an absolute path, the files must not be all that the base folder shows, for
then the lookup of includes would have nothing left to look into.
-/
theorem survey_without_unreadable
    (modular : collector.resolver = Include.find? collector.settings)
    (passed : collector.IsPassedOver disk module gone)
    (listed : Include.HasAbsoluteFolder collector.settings →
      Include.lookedInto collector.settings (disk.withoutFiles gone) collector.access = [] →
        Include.lookedInto collector.settings disk collector.access = []) :
    let code := (collector.codeFiles disk module).map disk.target
    let templates := (collector.templateFiles disk module).map disk.target
    let survey := collector.survey disk module
    let without := collector.survey (disk.withoutFiles gone) module
    survey.entities = without.entities ∧ survey.overwritten = without.overwritten ∧
      survey.filesScanned = without.filesScanned ∧
      survey.warnings = without.warnings + (code ++ templates).countP gone ∧
      code.Nodup ∧ templates.Nodup := by
  intro code templates survey without
  obtain ⟨unreadableCode, unreadableTemplates⟩ := List.forall_mem_append.mp passed.unreadable
  have spares : Include.Spares collector.settings disk collector.access gone :=
    ⟨modular ▸ passed.missed, listed⟩
  let start : Survey := { module }
  let begun := start.note (Log.info ("Processing module '".toList ++ module ++ "'".toList))
  have visited := visitDeclared_aheadBy collector
    (visitCode_aheadBy (.refl begun) unreadableCode)
  have named : (collector.visitDeclared (collector.visitCode disk begun)).module = module := by
    rw [module_visitDeclared, module_visitCode]
    rfl
  have ahead := reportOverwritings_aheadBy
    (visitTemplates_aheadBy visited (by rwa [named])
      (expansion_agrees_withoutFiles modular spares))
  rw [named, Nat.zero_add] at ahead
  refine ⟨ahead.entities, ahead.overwritten, ahead.filesScanned, ?_,
    nodup_map_target_selectedBelow .., nodup_map_target_selectedBelow ..⟩
  rw [List.countP_append, List.countP_map, List.countP_map]
  exact ahead.warnings

/-- A module with code that cannot be read, and with a template that includes another one. -/
theorem survey_without_unreadable_code :
    let disk : Disk :=
      ((((((((Disk.blank.graft [] "cms".toList .folder).graft
        [encode "cms".toList] "_config.php".toList (.file [])).graft
        [encode "cms".toList] "code".toList .folder).graft
        [encode "cms".toList, encode "code".toList] "Old.php".toList
          (.file (encode "_t('A.B', 'Save')".toList))).graft
        [encode "cms".toList, encode "code".toList] "Page.php".toList
          (.file (encode "_t('A.C', 'Open')".toList))).graft
        [encode "cms".toList] "templates".toList .folder).graft
        [encode "cms".toList, encode "templates".toList] "Page.ss".toList
          (.file (encode "<% include Footer %>".toList))).graft
        [encode "cms".toList, encode "templates".toList] "Includes".toList .folder).graft
        [encode "cms".toList, encode "templates".toList, encode "Includes".toList]
          "Footer.ss".toList (.file (encode "<% _t('BACK', 'Back') %>".toList))
    let collector : Collector :=
      { settings := {}, ignored := [], access := .denying [⟨"./cms/code/Old.php".toList⟩] [] }
    let gone : Location → Bool := fun location =>
      location = [encode "cms".toList, encode "code".toList, encode "Old.php".toList]
    let survey := collector.survey disk "cms".toList
    let without := collector.survey (disk.withoutFiles gone) "cms".toList
    survey.entities = without.entities ∧ survey.overwritten = without.overwritten ∧
      survey.filesScanned = without.filesScanned ∧ survey.warnings = without.warnings + 1 := by
  intro disk collector gone survey without
  have passed : collector.IsPassedOver disk "cms".toList gone := by
    refine .of_unnamed rfl (by decide) (fun location name isGone _ => ?_) (by decide +kernel)
    rw [of_decide_eq_true isGone]
    exact mt Option.some.inj (Text.encode_ne_of_not_suffix (by decide) name)
  have relative : ¬Include.HasAbsoluteFolder collector.settings :=
    not_or.mpr ⟨by decide, by decide⟩
  obtain ⟨entities, overwritten, filesScanned, warnings, -⟩ :=
    survey_without_unreadable rfl passed fun absolute => absurd absolute relative
  refine ⟨entities, overwritten, filesScanned, warnings.trans ?_⟩
  exact congrArg (without.warnings + ·) (by decide +kernel)

/--
An unreadable file can be all that the base folder shows.  Then the lookup of includes looks into it
on behalf of a folder of templates with an absolute path, and without it a directive leads nowhere.
And a file that is selected both as code and as a template brings two warnings.
-/
theorem survey_without_unreadable_ne :
    (let disk : Disk :=
        (((((Disk.blank.graft [] "fragments".toList .folder).graft
          [encode "fragments".toList] "Footer.ss".toList
            (.file (encode "<% _t('BACK', 'Back') %>".toList))).graft
          [] "shared".toList .folder).graft
          [encode "shared".toList] "Page.ss".toList
            (.file (encode "<% include Footer %>".toList))).graft
          [] "site".toList .folder).graft
          [encode "site".toList] "Old.php".toList (.file [])
      let settings : Settings :=
        { base := ⟨"site".toList⟩, templateFolder := "/shared".toList
          includeFolder := "/fragments".toList, framework := [] }
      let collector : Collector :=
        { settings, ignored := [], access := .denying [⟨"site/Old.php".toList⟩] [] }
      let gone : Location → Bool := fun location =>
        location = [encode "site".toList, encode "Old.php".toList]
      let survey := collector.survey disk []
      let without := collector.survey (disk.withoutFiles gone) []
      settings.validate = .ok () ∧ IsPassedOver collector disk [] gone ∧
        ((collector.codeFiles disk [] ++ collector.templateFiles disk []).map disk.target).countP
          gone = 1 ∧
        survey.entities.size = 1 ∧ without.entities.size = 0 ∧
        survey.warnings = 1 ∧ without.warnings = 1) ∧
      let disk : Disk :=
        ((Disk.blank.graft [] "cms".toList .folder).graft
          [encode "cms".toList] "templates".toList .folder).graft
          [encode "cms".toList, encode "templates".toList] "Old page.ss".toList (.file [])
      let settings : Settings :=
        { codeFolder := "templates".toList, codeExtension := "ss".toList }
      let collector : Collector :=
        { settings, ignored := []
          access := .denying [⟨"./cms/templates/Old page.ss".toList⟩] [] }
      let gone : Location → Bool := fun location =>
        location = [encode "cms".toList, encode "templates".toList, encode "Old page.ss".toList]
      settings.validate = .ok () ∧ IsPassedOver collector disk "cms".toList gone ∧
        (collector.survey disk "cms".toList).warnings = 2 ∧
        (collector.survey (disk.withoutFiles gone) "cms".toList).warnings = 0 := by
  constructor
  · intro disk settings collector gone survey without
    have passed : collector.IsPassedOver disk [] gone := by
      refine .of_unnamed rfl (by decide) (fun location name isGone _ => ?_) (by decide +kernel)
      rw [of_decide_eq_true isGone]
      exact mt Option.some.inj (Text.encode_ne_of_not_suffix (by decide) name)
    exact ⟨by decide +kernel, passed, by decide +kernel⟩
  · intro disk settings collector gone
    have passed : collector.IsPassedOver disk "cms".toList gone := by
      refine .of_unnamed rfl (by decide) (fun location name isGone characters same => ?_)
        (by decide +kernel)
      rw [of_decide_eq_true isGone] at same
      have named : "Old page".toList ++ ".ss".toList = name ++ ".ss".toList :=
        Text.encode_injective (Option.some.inj same)
      rw [← List.append_cancel_right named] at characters
      exact absurd (characters ' ' (by decide)) (by decide)
    exact ⟨by decide +kernel, passed, by decide +kernel⟩

end Collector
end Phrasebook
