import Phrasebook.Proofs.Collection.Beside
import Phrasebook.Proofs.Survey.Ignoring

/-!
# Collections with ignored files

The contents of ignored files make no difference to a collection, as long as the included templates
are the same: the modules and what is collected for them are the same, and so are the tables, even
those that stand where a pattern would have their earlier contents ignored.
-/

namespace Phrasebook

open Text (encode)

namespace Collector

open Disk (ChangedAlike)

variable
  {collector : Collector}
  {first second : Disk}
  {module : Text}

/-- Disks that are changed alike differ in ignored files only, if they did before. -/
theorem differIgnored_of_changedAlike
    {firstAfter secondAfter : Disk}
    (changed : ChangedAlike first second firstAfter secondAfter)
    (differ : collector.DifferIgnored first second) :
    collector.DifferIgnored firstAfter secondAfter := by
  refine ⟨changed.sameHere differ.here,
    fun location => changed.sameShapeAt (differ.shapes location), fun location different => ?_⟩
  rw [changed.target]
  exact differ.ignored location fun same => different (changed.sameAt same)

section Runs

variable
  (modular : collector.resolver = Include.find? collector.settings)
  (names : collector.settings.HavePlainNames)
  (differ : collector.DifferIgnored first second)
  (included : collector.SameIncluded (fun _ => True) first second)

include differ

theorem isModule_congr_of_differIgnored (name : Text) :
    collector.isModule second name = collector.isModule first name := by
  simp only [isModule, Disk.holdsFolder_congr_of_sameShape (differ.shapedAlong _),
    Disk.holdsFile_congr_of_sameShape (differ.shapedAlong _)]

include modular names included

/-- Disks that differ in ignored files are alike for a module. -/
theorem alikeFor_of_differIgnored (plain : Path.IsPlainName module) :
    collector.AlikeFor first second module := by
  refine ⟨fun firstAfter secondAfter changed => ?_,
    fun location _ => differ.shapes location, fun location _ => differ.shapes location⟩
  exact survey_congr ((differIgnored_of_changedAlike changed differ).sameSources names
    (sameIncluded_of_changedAlike changed included) modular plain)

/--
A collection does not depend on the contents of ignored files, with one exception.  The lookup of
includes does not look at the patterns, so the templates that lie where it looks have to be the
same, ignored or not.  Then the results, the logs, the surveys of the modules and the tables are the
same on both disks, whatever the patterns are.
-/
theorem run_ignoring (filter : Option Text) : collector.SameRuns filter first second := by
  have accepted : ∀ name : Text, Path.IsPlainName name →
      collector.isModule second name = collector.isModule first name :=
    fun name _ => isModule_congr_of_differIgnored differ name
  refine sameRuns_of_alikeFor differ.here ?_ (complaints_congr_of_isModule accepted)
    fun module plain _ => alikeFor_of_differIgnored modular names differ included plain
  exact modules_congr_of_list (by rw [differ.list_congr]) accepted

end Runs

/-- The text of a file that is passed over makes no difference. -/
theorem run_ignoring_code :
    let first : Disk :=
      ((((Disk.blank.graft [] "cms".toList .folder).graft
        [encode "cms".toList] "_config.php".toList (.file [])).graft
        [encode "cms".toList] "code".toList .folder).graft
        [encode "cms".toList, encode "code".toList] "Page.php".toList
          (.file (encode "_t('A.B', 'Save')".toList))).graft
        [encode "cms".toList, encode "code".toList] "Old.php".toList
          (.file (encode "_t('A.B', 'Store')".toList))
    let second : Disk :=
      first.graft [encode "cms".toList, encode "code".toList] "Old.php".toList
        (.file (encode "_t('A.C', 'Keep')".toList))
    let settings : Settings := { ignored := ["code/O*".toList] }
    let collector : Collector :=
      { settings, ignored := ["code/O".toList.map .char ++ [.anyText]] }
    settings.patterns = .ok collector.ignored ∧ collector.DifferIgnored first second ∧
      second.node? [encode "cms".toList, encode "code".toList, encode "Old.php".toList] ≠
        first.node? [encode "cms".toList, encode "code".toList, encode "Old.php".toList] ∧
      collector.SameRuns none first second := by
  intro first second settings collector
  have base : first.target collector.settings.base = [] := by decide +kernel
  have names : collector.settings.HavePlainNames := by
    obtain ⟨marker, codeFolder, templateFolder, includeFolder⟩ := Settings.havePlainNames_default
    exact ⟨marker, codeFolder, templateFolder, includeFolder⟩
  have ignored : collector.Ignores [encode "code".toList, encode "Old.php".toList] :=
    ⟨"code/Old.php".toList, rfl, _, List.mem_singleton_self _, by decide +kernel⟩
  have differ : collector.DifferIgnored first second :=
    (DifferIgnored.refl collector first).graft (by rw [base]; rfl) ignored (by decide +kernel) _
  have included : collector.SameIncluded (fun _ => True) first second := by
    intro child _ _ name content location
    rw [Disk.node?_graft_of_ne]
    rintro same
    simp [location, includedAt, base] at same
  exact ⟨by decide +kernel, differ, by decide +kernel,
    run_ignoring rfl names differ included none⟩

/--
A template can be included although a pattern stands for it: its text comes into the table of the
module that includes it.
-/
theorem run_ignoring_ne :
    let first : Disk :=
      (((((Disk.blank.graft [] "cms".toList .folder).graft
        [encode "cms".toList] "_config.php".toList (.file [])).graft
        [encode "cms".toList] "templates".toList .folder).graft
        [encode "cms".toList, encode "templates".toList] "Page.ss".toList
          (.file (encode "<% include Footer %>".toList))).graft
        [encode "cms".toList, encode "templates".toList] "Includes".toList .folder).graft
        [encode "cms".toList, encode "templates".toList, encode "Includes".toList]
          "Footer.ss".toList (.file (encode "<% _t('BACK', 'Back') %>".toList))
    let second : Disk :=
      first.graft [encode "cms".toList, encode "templates".toList, encode "Includes".toList]
        "Footer.ss".toList (.file (encode "<% _t('BACK', 'Return') %>".toList))
    let settings : Settings := { ignored := ["templates/Includes/Footer.ss".toList] }
    let collector : Collector :=
      { settings, ignored := ["templates/Includes/Footer.ss".toList.map .char] }
    settings.validate = .ok () ∧ settings.patterns = .ok collector.ignored ∧
      settings.HavePlainNames ∧ collector.DifferIgnored first second ∧
      (collector.run second none).disk.find (collector.tablePath "cms".toList) ≠
        (collector.run first none).disk.find (collector.tablePath "cms".toList) := by
  intro first second settings collector
  have base : first.target collector.settings.base = [] := by decide +kernel
  have names : collector.settings.HavePlainNames := by
    obtain ⟨marker, codeFolder, templateFolder, includeFolder⟩ := Settings.havePlainNames_default
    exact ⟨marker, codeFolder, templateFolder, includeFolder⟩
  have ignored : collector.Ignores
      [encode "templates".toList, encode "Includes".toList, encode "Footer.ss".toList] :=
    ⟨"templates/Includes/Footer.ss".toList, rfl, _, List.mem_singleton_self _, by decide +kernel⟩
  have differ : collector.DifferIgnored first second :=
    (DifferIgnored.refl collector first).graft (by rw [base]; rfl) ignored (by decide +kernel) _
  exact ⟨by decide +kernel, by decide +kernel, names, differ, by decide +kernel⟩

end Collector
end Phrasebook
