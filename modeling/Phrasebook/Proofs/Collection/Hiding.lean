import Phrasebook.Proofs.Collection.Twins
import Phrasebook.Proofs.Survey.Hiding

/-!
# Collections beside hidden files and folders

Whatever is hidden makes no difference to a collection, at any depth below the base folder, as long
as the settings name nothing hidden and the tables are saved in the modules.  What begins with a dot
can make a difference otherwise: the path of the base folder may pass through it, and a name that is
no text is not hidden.
-/

namespace Phrasebook

open Text (encode)

namespace Collector

open Disk (AlikeAlong ChangedAlike)

variable
  {collector : Collector}
  {first second : Disk}
  {module : Text}

/-- Disks that are changed alike differ in what is hidden only, if they did before. -/
theorem differHidden_of_changedAlike
    {base : Path}
    {firstAfter secondAfter : Disk}
    (changed : ChangedAlike first second firstAfter secondAfter)
    (along : AlikeAlong first second base)
    (differ : DifferHidden base first second) :
    DifferHidden base firstAfter secondAfter := by
  refine ⟨changed.sameHere differ.here, Disk.find_congr (changed.alikeAlong along),
    fun location different => ?_⟩
  rw [changed.target]
  exact differ.hidden location fun same => different (changed.sameAt same)

theorem visible_of_isModule
    {disk : Disk}
    (accepted : collector.isModule disk module = true) :
    Path.isHiddenName module = false := by
  simp only [isModule, Bool.and_eq_true, Bool.not_eq_true'] at accepted
  exact accepted.1.1

section Runs

variable
  (modular : collector.resolver = Include.find? collector.settings)
  (valid : collector.settings.validate = .ok ())
  (names : collector.settings.HaveVisibleNames)
  (unsaved : collector.settings.save = none)
  (visibleLocale : Path.isHiddenName collector.settings.locale = false)
  (differ : DifferHidden collector.settings.base first second)

include valid unsaved visibleLocale differ

/-- The table of a visible module lies at a visible location. -/
theorem keeps_of_differHidden
    (along : AlikeAlong first second collector.settings.base)
    (plain : Path.IsPlainName module)
    (visible : Path.isHiddenName module = false) :
    collector.Keeps first (Disk.SameShapeAt first second) module := by
  have saved := saveFolder_eq_base unsaved
  have shaped (name : Text) (plainName : Path.IsPlainName name)
      (visibleName : Path.isHiddenName name = false) :
      Disk.SameShapeAlong first second
        ((Table.folderOf collector.settings.saveFolder module).join name) := by
    have way := differ.along_visible along [encode module, encode "lang".toList, encode name]
      (by simpa using ⟨plain, Table.isPlainName_lang, plainName⟩)
      (by simpa [Visible] using ⟨visible, by decide, visibleName⟩)
    rw [saved]
    exact way.sameShape
  obtain ⟨char, rest, locale⟩ := List.exists_cons_of_ne_nil (locale_ne_nil_of_validate valid)
  constructor
  · exact (shaped _ Table.isPlainName_marker (by decide)).shapes
  · refine (shaped _ (Table.isPlainName_of_locale (noSlash_of_validate valid) _) ?_).shapes
    rw [locale] at visibleLocale ⊢
    exact visibleLocale

include modular names

/-- Disks that differ in what is hidden are alike for a module. -/
theorem alikeFor_of_differHidden
    (plain : Path.IsPlainName module)
    (accepted : collector.isModule first module = true) :
    collector.AlikeFor first second module := by
  have along := along_of_isModule differ plain (.inl accepted)
  have visible := visible_of_isModule accepted
  refine ⟨fun firstAfter secondAfter changed => ?_,
    keeps_of_differHidden valid unsaved visibleLocale differ along plain visible⟩
  exact survey_congr (sameSources_of_differHidden names
    (differHidden_of_changedAlike changed along differ) (changed.alikeAlong along) modular plain
    visible)

/--
A collection does not depend on hidden files and folders, whatever lies below them and at any depth
below the base folder.  The results, the logs, the surveys of the modules and the tables are the
same.  The base folder itself has to be the same: its path could pass through a hidden folder.
-/
theorem run_hiding (filter : Option Text) : collector.SameRuns filter first second := by
  have accepted : ∀ name : Text, Path.IsPlainName name →
      collector.isModule second name = collector.isModule first name :=
    fun _ plain => isModule_congr_of_differHidden names differ plain
  refine sameRuns_of_alikeFor differ.here ?_ (complaints_congr_of_isModule accepted)
    fun module plain isModule => alikeFor_of_differHidden modular valid names unsaved visibleLocale
      differ plain isModule
  rcases differ.along_or with along | ⟨-, cause, missing⟩
  · exact modules_congr_of_list (differ.filter_list_congr along _) accepted
  · refine modules_congr_of_list (congrArg _ ?_) accepted
    rw [Disk.list, Disk.list, differ.found, missing]

end Runs

/-- A folder of versions and a backup of a file of code make no difference. -/
theorem run_hiding_versions :
    let first : Disk :=
      (((Disk.blank.graft [] "cms".toList .folder).graft
        [encode "cms".toList] "_config.php".toList (.file [])).graft
        [encode "cms".toList] "code".toList .folder).graft
        [encode "cms".toList, encode "code".toList] "Page.php".toList
          (.file (encode "_t('A.B', 'Save')".toList))
    let second : Disk :=
      ((first.graft [] ".git".toList .folder).graft
        [encode ".git".toList] "_config.php".toList (.file [])).graft
        [encode "cms".toList, encode "code".toList] ".Page.php".toList
          (.file (encode "_t('A.B', 'Store')".toList))
    let collector : Collector := { settings := {}, ignored := [] }
    collector.settings.validate = .ok () ∧
      DifferHidden collector.settings.base first second ∧
      second.node? [encode "cms".toList, encode "code".toList, encode ".Page.php".toList] ≠
        first.node? [encode "cms".toList, encode "code".toList, encode ".Page.php".toList] ∧
      collector.SameRuns none first second := by
  intro first second collector
  have valid : collector.settings.validate = .ok () := by decide +kernel
  have base : first.target collector.settings.base = [] := by decide +kernel
  have differ : DifferHidden collector.settings.base first second :=
    (((DifferHidden.refl collector.settings.base first).graft
      [encode ".git".toList] (by simp [base])
      (by unfold Visible; decide) _ (by decide +kernel)).graft
      [encode ".git".toList, encode "_config.php".toList] (by simp [base])
      (by unfold Visible; decide) _ (by decide +kernel)).graft
      [encode "cms".toList, encode "code".toList, encode ".Page.php".toList] (by simp [base])
      (by unfold Visible; decide) _ (by decide +kernel)
  exact ⟨valid, differ, by decide +kernel,
    run_hiding rfl valid Settings.haveVisibleNames_default rfl (by decide) differ none⟩

/-- Two disks differ only at and below names with a dot in front, below a base folder. -/
structure DifferDotted (base : Path) (first second : Disk) : Prop where
  /-- The working folders are the same. -/
  here : second.here = first.here
  /-- What is different lies at or below a name with a dot in front. -/
  dotted : ∀ location, second.node? location ≠ first.node? location →
    ∃ names, location = first.target base ++ names ∧ ∃ name ∈ names, name.head? = some Path.dot

/-- A node is put behind names of which one has a dot in front. -/
theorem DifferDotted.of_graft
    {base : Path}
    {parent : Location}
    {name : Bytes}
    (names : Location)
    (place : parent ++ [name] = first.target base ++ names)
    (dotted : ∃ other ∈ names, other.head? = some Path.dot)
    (node : Node) :
    DifferDotted base first (first.graft parent name node) := by
  refine ⟨Disk.here_graft first parent name node, fun location changed => ?_⟩
  by_cases here : location = parent ++ [name]
  · exact ⟨names, here.trans place, dotted⟩
  · exact absurd (Disk.node?_graft_of_ne first parent name node here) changed

/--
A dot in front of a name is not enough.  The path of the base folder can pass through a folder with
such a name, and then the base folder is found on one of the disks only.  And a name that is no text
is not hidden, so the code behind it is read.
-/
theorem run_hiding_ne :
    let counts (report : Report) := report.modules.map ModuleReport.entities
    (let first : Disk :=
        (Disk.blank.graft [] "cms".toList .folder).graft
          [encode "cms".toList] "_config.php".toList (.file [])
      let second : Disk := first.graft [] ".cache".toList .folder
      let settings : Settings := { base := ⟨".cache/..".toList⟩ }
      let collector : Collector := { settings, ignored := [] }
      settings.validate = .ok () ∧ settings.HaveVisibleNames ∧
        DifferDotted settings.base first second ∧
        (collector.run first none).result.toOption = none ∧
        (collector.run second none).result.map counts = .ok [0]) ∧
      let first : Disk :=
        ((Disk.blank.graft [] "cms".toList .folder).graft
          [encode "cms".toList] "_config.php".toList (.file [])).graft
          [encode "cms".toList] "code".toList .folder
      let second : Disk :=
        first.graft [encode "cms".toList, encode "code".toList]
          (encode ".caf".toList ++ [0xE9] ++ encode ".php".toList)
          (.file (encode "_t('A.B', 'Save')".toList))
      let collector : Collector := { settings := {}, ignored := [] }
      collector.settings.validate = .ok () ∧ collector.settings.HaveVisibleNames ∧
        DifferDotted collector.settings.base first second ∧
        (collector.run first none).result.map counts = .ok [0] ∧
        (collector.run second none).result.map counts = .ok [1] := by
  intro counts
  constructor
  · intro first second settings collector
    have base : first.target settings.base = [] := by decide +kernel
    have names : settings.HaveVisibleNames := by
      obtain ⟨⟨marker, code, templates, includes⟩, visibleMarker, visibleCode, visibleTemplates,
        visibleIncludes⟩ := Settings.haveVisibleNames_default
      exact ⟨⟨marker, code, templates, includes⟩, visibleMarker, visibleCode, visibleTemplates,
        visibleIncludes⟩
    have differ : DifferDotted settings.base first second :=
      .of_graft [encode ".cache".toList] (by rw [base]) ⟨_, List.mem_cons_self, rfl⟩ _
    exact ⟨by decide +kernel, names, differ, by decide +kernel, by decide +kernel⟩
  · intro first second collector
    have base : first.target collector.settings.base = [] := by decide +kernel
    have differ : DifferDotted collector.settings.base first second :=
      .of_graft [encode "cms".toList, encode "code".toList,
        encode ".caf".toList ++ [0xE9] ++ encode ".php".toList] (by rw [base]; rfl)
        ⟨_, List.mem_of_getLast? rfl, rfl⟩ _
    exact ⟨by decide +kernel, Settings.haveVisibleNames_default, differ, by decide +kernel,
      by decide +kernel⟩

end Collector
end Phrasebook
