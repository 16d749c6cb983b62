import Phrasebook.Proofs.Collection.Twins
import Phrasebook.Proofs.Survey.Beside

/-!
# Collections beside folders that are no modules

What lies inside the folders that are no modules makes no difference to a collection, as long as the
tables are not to be saved there and the included templates there are the same.  The turns of the
modules keep it so, because they change both disks alike.
-/

namespace Phrasebook

open Disk (AlikeAt ChangedAlike SameAt)
open Text (encode)

namespace Collector

variable
  {collector : Collector}
  {others : Bytes → Prop}
  {module : Text}

section Changed

variable
  {first second firstAfter secondAfter : Disk}
  (changed : ChangedAlike first second firstAfter secondAfter)

include changed

/-- Disks that are changed alike differ where they differed. -/
theorem differInside_of_changedAlike
    {base : Path}
    (differ : DifferInside base others first second) :
    DifferInside base others firstAfter secondAfter := by
  refine ⟨changed.alikeAlong differ.along, fun location different => ?_⟩
  rw [changed.target]
  exact differ.inside location fun same => different (changed.sameAt same)

/-- Disks that are changed alike include the same as before. -/
theorem sameIncluded_of_changedAlike
    (included : collector.SameIncluded others first second) :
    collector.SameIncluded others firstAfter secondAfter := by
  intro child other visible name content location
  have before := included child other visible name content
  rw [← changed.target] at before
  rcases changed.nodes location with same | ⟨stays, staysSecond⟩
  · rw [same]
  · rw [stays, staysSecond]
    exact before

end Changed

section Runs

variable
  (modular : collector.resolver = Include.find? collector.settings)
  (names : collector.settings.HavePlainNames)

include modular names

/-- Beside other folders disks are alike for a module. -/
theorem alikeFor_beside
    {first second : Disk}
    (plain : Path.IsPlainName module)
    (own : ¬others module)
    (keeps : collector.Keeps first (SameAt first second) module)
    (differ : DifferInside collector.settings.base others first second)
    (included : collector.SameIncluded others first second) :
    collector.AlikeFor first second module := by
  refine ⟨fun firstAfter secondAfter changed => ?_, keeps.mono fun _ same => same.shape⟩
  exact survey_congr (sameSources_beside (differInside_of_changedAlike changed differ) names
    (sameIncluded_of_changedAlike changed included) modular own plain)

/-- The turns of modules go alike beside other folders, and leave disks that are alike. -/
theorem foldl_collectModule_beside
    {modules : List Text}
    (plain : ∀ module ∈ modules, Path.IsPlainName module)
    (own : ∀ module ∈ modules, ¬others (encode module))
    {first second : Progress}
    (keeps : ∀ module ∈ modules,
      collector.Keeps first.disk (SameAt first.disk second.disk) module)
    (differ : DifferInside collector.settings.base others first.disk second.disk)
    (included : collector.SameIncluded others first.disk second.disk)
    (same : SameSoFar first second) :
    let last := modules.foldl collector.collectModule first
    let lastSecond := modules.foldl collector.collectModule second
    SameSoFar last lastSecond ∧
      AlikeAt (SameAt first.disk second.disk) last.disk lastSecond.disk := by
  have alike : ∀ module ∈ modules, collector.AlikeFor first.disk second.disk module :=
    fun module member => alikeFor_beside modular names (plain module member) (own module member)
      (keeps module member) differ included
  obtain ⟨sameLast, changed, -⟩ := foldl_collectModule_alike differ.along.here alike same
  exact ⟨sameLast, changed.alikeAt (.of_here differ.along.here)⟩

end Runs

/-- A name in the base folder that is no module on either of two disks. -/
def IsBeside (collector : Collector) (first second : Disk) (child : Bytes) : Prop :=
  ∀ module, child = encode module →
    collector.isModule first module = false ∧ collector.isModule second module = false

theorem isBeside_encode_iff {first second : Disk} :
    collector.IsBeside first second module ↔
      collector.isModule first module = false ∧ collector.isModule second module = false :=
  ⟨fun beside => beside module rfl,
    fun neither _ same => Text.encode_injective same ▸ neither⟩

theorem not_isBeside
    {first second : Disk}
    (accepted : collector.isModule first module = true) :
    ¬collector.IsBeside first second module := by
  intro beside
  rw [(isBeside_encode_iff.mp beside).1] at accepted
  cases accepted

section Beside

variable
  {first second : Disk}
  (names : collector.settings.HavePlainNames)
  (differ : DifferInside collector.settings.base (collector.IsBeside first second) first second)

/-- Tables that lie in the modules need nothing inside other folders. -/
theorem keeps_of_differInside
    (differ : DifferInside collector.settings.base others first second)
    (unsaved : collector.settings.save = none)
    (noSlash : '/' ∉ collector.settings.locale)
    (plain : Path.IsPlainName module)
    (own : ¬others module) :
    collector.Keeps first (SameAt first second) module := by
  have saved := saveFolder_eq_base unsaved
  have along (name : Text) (plainInside : Path.IsPlainName name) : Disk.AlikeAlong first second
      ((Table.folderOf collector.settings.saveFolder module).join name) := by
    have plainNames : ∀ other ∈ [encode "lang".toList, encode name], Path.IsPlainName other := by
      simpa using ⟨Table.isPlainName_lang, plainInside⟩
    rw [saved]
    exact differ.along_module own plain plainNames
  constructor
  · exact (along _ Table.isPlainName_marker).nodes
  · exact (along _ (Table.isPlainName_of_locale noSlash _)).nodes

include differ

theorem candidates_congr (filter : Option Text) :
    collector.candidates second filter = collector.candidates first filter := by
  unfold candidates
  rw [differ.list_congr]

include names

/-- The same modules are collected. -/
theorem modules_congr_beside (filter : Option Text) :
    collector.modules second filter = collector.modules first filter :=
  modules_congr_of_isModule (candidates_congr differ filter) fun _ plain =>
    isModule_congr differ names (fun _ => isBeside_encode_iff.mp) plain

theorem complaints_congr (filter : Option Text) :
    collector.complaints second filter = collector.complaints first filter :=
  complaints_congr_of_isModule fun _ plain =>
    isModule_congr differ names (fun _ => isBeside_encode_iff.mp) plain

/--
A collection does not depend on what lies inside the folders beside the modules, with two
exceptions.  The lookup of includes looks into every visible folder, so the included templates in
these folders have to be the same; and where the tables are not saved in the modules, the places
that they need have to be the same.  Then the reports, the logs and the tables are the same on both
disks.
-/
theorem run_beside
    (modular : collector.resolver = Include.find? collector.settings)
    (included : collector.SameIncluded (collector.IsBeside first second) first second)
    (tables : collector.settings.save = none ∧ '/' ∉ collector.settings.locale ∨
      ∀ module, collector.isModule first module = true →
        collector.Keeps first (SameAt first second) module)
    (filter : Option Text) :
    let one := collector.run first filter
    let other := collector.run second filter
    other.result = one.result ∧ other.log = one.log ∧
      ∀ module : Text, Path.IsPlainName module → collector.isModule first module = true →
        other.disk.find (collector.tablePath module) =
          one.disk.find (collector.tablePath module) := by
  intro one other
  have keeps : ∀ module : Text, Path.IsPlainName module → collector.isModule first module = true →
      collector.Keeps first (SameAt first second) module := by
    intro module plain accepted
    rcases tables with ⟨unsaved, noSlash⟩ | needed
    · exact keeps_of_differInside differ unsaved noSlash plain (not_isBeside accepted)
    · exact needed module accepted
  have listedSecond := modules_congr_beside names differ filter
  have complained := complaints_congr names differ filter
  cases listed : collector.modules first filter with
  | error unlisted =>
      rw [listed] at listedSecond
      simp only [one, other, run, listed, listedSecond, true_and]
      intro module plain accepted
      apply Disk.find_congr
      exact (AlikeAt.of_here differ.along.here).along (keeps module plain accepted).table
  | ok modules =>
      rw [listed] at listedSecond
      let begun := [Log.info "Collecting text...".toList]
      let start : Progress := { disk := first, log := begun ++ collector.complaints first filter }
      let startSecond : Progress :=
        { disk := second, log := begun ++ collector.complaints second filter }
      have sameStart : SameSoFar start startSecond :=
        ⟨rfl, by simp only [startSecond, start, complained]⟩
      have plain : ∀ module ∈ modules, Path.IsPlainName module := fun _ member =>
        (of_mem_modules listed member).1
      have accepted : ∀ module ∈ modules, collector.isModule first module = true :=
        fun _ member => (of_mem_modules listed member).2
      have own : ∀ module ∈ modules, ¬collector.IsBeside first second module :=
        fun module member => not_isBeside (accepted module member)
      have keepsAll : ∀ module ∈ modules, collector.Keeps first (SameAt first second) module :=
        fun module member => keeps module (plain module member) (accepted module member)
      obtain ⟨same, alike⟩ :=
        foldl_collectModule_beside modular names plain own keepsAll differ included sameStart
      simp only [one, other, run, listed, listedSecond]
      refine ⟨congrArg Except.ok same.report, by rw [same.log], fun module plain accepted => ?_⟩
      have here : (modules.foldl collector.collectModule start).disk.here = first.here :=
        (touched_foldl collector modules start).here
      exact Disk.find_congr (alike.along ((keeps module plain accepted).table.congr here))

end Beside

/-- Code in a folder beside the modules makes no difference. -/
theorem run_beside_code :
    let first : Disk :=
      ((((Disk.blank.graft [] "assets".toList .folder).graft
        [] "cms".toList .folder).graft
        [encode "cms".toList] "_config.php".toList (.file [])).graft
        [encode "cms".toList] "code".toList .folder).graft
        [encode "cms".toList, encode "code".toList] "Page.php".toList
          (.file (encode "_t('A.B', 'Save')".toList))
    let second : Disk :=
      (first.graft [encode "assets".toList] "code".toList .folder).graft
        [encode "assets".toList, encode "code".toList] "Secret.php".toList
          (.file (encode "_t('A.B', 'Hidden')".toList))
    let collector : Collector := { settings := {}, ignored := [] }
    collector.IsBeside first second "assets".toList ∧
      second.node? [encode "assets".toList, encode "code".toList] ≠
        first.node? [encode "assets".toList, encode "code".toList] ∧
      (collector.run second none).result = (collector.run first none).result := by
  intro first second collector
  have beside : collector.IsBeside first second "assets".toList :=
    isBeside_encode_iff.mpr ⟨by decide +kernel, by decide +kernel⟩
  have base : first.target collector.settings.base = [] := by decide +kernel
  have differ : DifferInside collector.settings.base (collector.IsBeside first second)
      first second :=
    ((DifferInside.refl collector.settings.base _ first).graft beside (by rw [base]; rfl)
      (by decide +kernel) _).graft beside (by rw [base]; rfl) (by decide +kernel) _
  have included : collector.SameIncluded (collector.IsBeside first second) first second := by
    intro child _ _ name content location
    have deep : location.length = 4 := by simp [location, includedAt, base]
    rw [Disk.node?_graft_of_ne, Disk.node?_graft_of_ne]
    · rintro same
      simp [same] at deep
    · rintro same
      simp [same] at deep
  have tables : collector.settings.save = none ∧ '/' ∉ collector.settings.locale := by
    exact ⟨rfl, by decide⟩
  obtain ⟨result, -, -⟩ :=
    run_beside Settings.havePlainNames_default differ rfl included (.inl tables) none
  exact ⟨beside, by decide +kernel, result⟩

/--
A template in a folder beside the modules can be included by a module: where it is there, the module
has one entity more and one warning less.
-/
theorem run_beside_ne :
    let first : Disk :=
      ((((Disk.blank.graft [] "assets".toList .folder).graft
        [] "cms".toList .folder).graft
        [encode "cms".toList] "_config.php".toList (.file [])).graft
        [encode "cms".toList] "templates".toList .folder).graft
        [encode "cms".toList, encode "templates".toList] "Page.ss".toList
          (.file (encode "<% include Footer %>".toList))
    let second : Disk :=
      ((first.graft [encode "assets".toList] "templates".toList .folder).graft
        [encode "assets".toList, encode "templates".toList] "Includes".toList .folder).graft
        [encode "assets".toList, encode "templates".toList, encode "Includes".toList]
          "Footer.ss".toList (.file (encode "<% _t('BACK', 'Back') %>".toList))
    let collector : Collector := { settings := {}, ignored := [] }
    let counts (report : Report) :=
      report.modules.map fun entry => (entry.module, entry.entities, entry.warnings)
    collector.settings.HavePlainNames ∧
      DifferInside collector.settings.base (collector.IsBeside first second) first second ∧
      (collector.run first none).result.map counts = .ok [("cms".toList, 0, 1)] ∧
      (collector.run second none).result.map counts = .ok [("cms".toList, 1, 0)] := by
  intro first second collector counts
  have beside : collector.IsBeside first second "assets".toList :=
    isBeside_encode_iff.mpr ⟨by decide +kernel, by decide +kernel⟩
  have base : first.target collector.settings.base = [] := by decide +kernel
  have differ : DifferInside collector.settings.base (collector.IsBeside first second)
      first second :=
    (((DifferInside.refl collector.settings.base _ first).graft beside (by rw [base]; rfl)
      (by decide +kernel) _).graft beside (by rw [base]; rfl) (by decide +kernel) _).graft beside
      (by rw [base]; rfl) (by decide +kernel) _
  exact ⟨Settings.havePlainNames_default, differ, by decide +kernel, by decide +kernel⟩

end Collector
end Phrasebook
