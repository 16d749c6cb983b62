import Phrasebook.Proofs.Survey.Beside

/-!
# Hidden files and folders

Everything whose name begins with a dot is hidden, with what lies below it.  Modules are not hidden,
walks pass over what is hidden, and the lookup of includes tries visible paths only, so as long as
the settings name nothing hidden, a survey looks at visible locations only.
-/

namespace Phrasebook

open Text (encode)

/-- The settings call the marker and the folders of a module by visible names. -/
structure Settings.HaveVisibleNames (settings : Settings) : Prop extends
    Settings.HavePlainNames settings where
  /-- The marker is visible. -/
  visibleMarker : Path.isHiddenName settings.marker = false
  /-- The folder of code is visible. -/
  visibleCode : Path.isHiddenName settings.codeFolder = false
  /-- The folder of templates is visible. -/
  visibleTemplates : Path.isHiddenName settings.templateFolder = false
  /-- The folder of included templates is visible. -/
  visibleIncludes : Path.isHiddenName settings.includeFolder = false

/-- The settings that are not given have visible names. -/
theorem Settings.haveVisibleNames_default : ({} : Settings).HaveVisibleNames := by
  refine ⟨Settings.havePlainNames_default, ?_, ?_, ?_, ?_⟩ <;> decide

/-- No name on the way is hidden. -/
def Visible (names : Location) : Prop :=
  ∀ name ∈ names, Path.isHidden name = false

/-- Two disks differ only in hidden files and folders below a base folder, and below those. -/
structure DifferHidden (base : Path) (first second : Disk) : Prop where
  /-- The working folders are the same. -/
  here : second.here = first.here
  /-- The base folder is the same. -/
  found : second.find base = first.find base
  /-- What is different lies at or below something hidden in the base folder. -/
  hidden : ∀ location, second.node? location ≠ first.node? location →
    ∃ names, location = first.target base ++ names ∧ ¬Visible names

namespace DifferHidden

theorem refl (base : Path) (disk : Disk) : DifferHidden base disk disk :=
  ⟨rfl, rfl, fun _ changed => absurd rfl changed⟩

variable
  {base : Path}
  {first second : Disk}
  {names : Location}
  (differ : DifferHidden base first second)

include differ

/-- Something hidden may come to a disk, if the base folder stays. -/
theorem graft
    {parent : Location}
    {name : Bytes}
    (names : Location)
    (place : parent ++ [name] = first.target base ++ names)
    (isHidden : ¬Visible names)
    (node : Node)
    (found : (second.graft parent name node).find base = second.find base) :
    DifferHidden base first (second.graft parent name node) := by
  refine ⟨by rw [Disk.here_graft, differ.here], found.trans differ.found,
    fun location changed => ?_⟩
  by_cases here : location = parent ++ [name]
  · exact ⟨names, here.trans place, isHidden⟩
  · rw [Disk.node?_graft_of_ne second parent name node here] at changed
    exact differ.hidden location changed

/-- What is visible below the base folder is the same. -/
theorem node?_visible (visible : Visible names) :
    second.node? (first.target base ++ names) = first.node? (first.target base ++ names) := by
  by_contra changed
  obtain ⟨others, place, isHidden⟩ := differ.hidden _ changed
  rw [List.append_cancel_left_eq] at place
  exact isHidden (place ▸ visible)

/-- The way to the base folder is the same, unless there is none. -/
theorem along_or : Disk.AlikeAlong first second base ∨
    base.bytes ≠ [] ∧ ∃ cause, first.find base = .error cause := by
  by_cases nonempty : base.bytes = []
  · -- An empty path stays where it starts.
    left
    have target : first.target base = first.here := by
      obtain ⟨bytes⟩ := base
      subst nonempty
      rfl
    refine ⟨differ.here, fun location member => ?_⟩
    have same : location = first.target base := by
      obtain ⟨bytes⟩ := base
      subst nonempty
      have stays : location ∈ [first.here, first.here] := member
      rw [target]
      simpa using stays
    rw [same, ← List.append_nil (first.target base)]
    exact differ.node?_visible (by simp [Visible])
  · cases found : first.find base with
    | error cause => exact .inr ⟨nonempty, cause, rfl⟩
    | ok place =>
        exact .inl (.of_same_find differ.here found (differ.found.trans found))

section Along

variable (along : Disk.AlikeAlong first second base)

include along

/-- Disks are alike along every visible way below the base folder. -/
theorem along_visible
    (names : Location)
    (plain : ∀ name ∈ names, Path.IsPlainName name)
    (visible : Visible names) :
    Disk.AlikeAlong first second (names.foldl Path.join base) :=
  along.foldl_join_of_same plain fun _ isFront =>
    differ.node?_visible fun name member => visible name (isFront.subset member)

/-- The visible names in the base folder are the same. -/
theorem filter_list_congr (access : Access) :
    (second.list access base).map (List.filter Include.isVisible) =
      (first.list access base).map (List.filter Include.isVisible) := by
  refine Disk.filter_list_congr along.sameShape (fun name plain visible => ?_) access
  rw [Include.isVisible, Path.textName?_join base plain] at visible
  split at visible
  next => cases visible
  next child decoded =>
    obtain rfl := Text.decode?_eq_some_iff.mp decoded
    rw [differ.node?_visible (by simpa [Visible] using visible)]

end Along

end DifferHidden

namespace Collector

variable
  {collector : Collector}
  {first second : Disk}
  {module : Text}

section Hiding

variable
  (names : collector.settings.HaveVisibleNames)
  (differ : DifferHidden collector.settings.base first second)

include differ

/-- The base folder of a module is there, so the way to it is the same. -/
theorem along_of_isModule
    (plain : Path.IsPlainName module)
    (accepted : collector.isModule first module = true ∨ collector.isModule second module = true) :
    Disk.AlikeAlong first second collector.settings.base := by
  rcases differ.along_or with along | ⟨nonempty, cause, missing⟩
  · exact along
  · rcases accepted with accepted | accepted
    · rw [find_base_of_isModule nonempty plain accepted] at missing
      cases missing
    · rw [← differ.found, find_base_of_isModule nonempty plain accepted] at missing
      cases missing

include names

/-- A folder that is a module on one of the disks is one on the other. -/
theorem isModule_congr_of_differHidden (plain : Path.IsPlainName module) :
    collector.isModule second module = collector.isModule first module := by
  have congr (along : Disk.AlikeAlong first second collector.settings.base) :
      collector.isModule second module = collector.isModule first module := by
    cases hidden : Path.isHiddenName module with
    | true => simp [isModule, hidden]
    | false =>
        have folder : Disk.AlikeAlong first second (collector.moduleFolder module) :=
          differ.along_visible along [encode module] (by simpa using plain)
            (by simpa [Visible] using hidden)
        have marker : Disk.AlikeAlong first second
            ((collector.moduleFolder module).join collector.settings.marker) :=
          differ.along_visible along [encode module, encode collector.settings.marker]
            (by simpa using ⟨plain, names.marker⟩)
            (by simpa [Visible] using ⟨hidden, names.visibleMarker⟩)
        simp only [isModule, Disk.holdsFolder_congr folder, Disk.holdsFile_congr marker]
  rw [Bool.eq_iff_iff]
  constructor
  · intro accepted
    rwa [← congr (along_of_isModule differ plain (.inr accepted))]
  · intro accepted
    rwa [congr (along_of_isModule differ plain (.inl accepted))]

variable (along : Disk.AlikeAlong first second collector.settings.base)

include along

omit names in
/-- The selected files in a visible folder of a module are the same, for all of them are visible. -/
theorem sameSelected_of_differHidden
    (folder : Path)
    (inside : Location)
    (plain : ∀ name ∈ inside, Path.IsPlainName name)
    (visible : Visible inside)
    (extension : Text) :
    collector.SameSelected first second folder extension
      (inside.foldl Path.join collector.settings.base) := by
  have alongRoot := differ.along_visible along inside plain visible
  have visibleWay {names : Location} (visibleInside : Visible names) :
      Visible (inside ++ names) := List.forall_mem_append.mpr ⟨visible, visibleInside⟩
  have below {names : Location} (visibleInside : Visible names) :
      second.node? (first.target (inside.foldl Path.join collector.settings.base) ++ names) =
        first.node? (first.target (inside.foldl Path.join collector.settings.base) ++ names) := by
    rw [Disk.target_foldl_join first _ plain, List.append_assoc]
    exact differ.node?_visible (visibleWay visibleInside)
  have walked : second.walk collector.access (inside.foldl Path.join collector.settings.base) =
      first.walk collector.access (inside.foldl Path.join collector.settings.base) := by
    refine Disk.walk_congr alongRoot.sameShape (fun names => ?_)
      (Disk.closedBelow_congr fun _ visibleInside => by rw [below visibleInside])
    rw [Disk.mem_filesBelow, Disk.mem_filesBelow]
    exact and_congr_right fun _ => and_congr_right fun visibleInside => by rw [below visibleInside]
  refine ⟨by simp only [filesWithExtension, walked], fun files selected path member => ?_,
    by simp only [Disk.passedOver, walked]⟩
  obtain ⟨-, names, found, rfl⟩ := exists_of_mem_filesWithExtension selected member
  obtain ⟨-, visibleInside, -, content, present⟩ := Disk.mem_filesBelow.mp found
  refine Disk.readLossy_congr (alongRoot.foldl_join_of_same (fun name inNames => ?_)
    fun front isFront => ?_) collector.access
  · exact Disk.isPlainName_of_mem_location (by rw [present]; rfl) inNames
  · exact below fun name inFront => visibleInside name (isFront.subset inFront)

/-- Templates include the same. -/
theorem expansion_agrees_of_differHidden
    (modular : collector.resolver = Include.find? collector.settings)
    (noSlash : '/' ∉ collector.settings.templateExtension) :
    (collector.expansion first).Agrees (collector.expansion second) := by
  refine expansion_agrees_of_found modular noSlash (differ.filter_list_congr along _) ?_
  intro module name looked plainFile visibleFile place content path
  have same : Disk.AlikeAlong first second path :=
    differ.along_visible along [encode module, encode collector.settings.templateFolder,
      encode collector.settings.includeFolder,
      encode (name ++ '.' :: collector.settings.templateExtension)]
      (by simpa [-Text.encode_append] using
        ⟨looked.plain, names.templateFolder, names.includeFolder, plainFile⟩)
      (by simpa [Visible, -Text.encode_append] using
        ⟨looked.visible, names.visibleTemplates, names.visibleIncludes, visibleFile⟩)
  rw [Disk.find_congr same]

/-- The sources of a survey are the same for a visible module. -/
theorem sameSources_of_differHidden
    (modular : collector.resolver = Include.find? collector.settings)
    (plain : Path.IsPlainName module)
    (visible : Path.isHiddenName module = false) :
    collector.SameSources first second module := by
  have plainInside {name : Text} (plainName : Path.IsPlainName name) :
      ∀ other ∈ [encode module, encode name], Path.IsPlainName other := by
    simpa using ⟨plain, plainName⟩
  have visibleInside {name : Text} (visibleName : Path.isHiddenName name = false) :
      Visible [encode module, encode name] := by
    simpa [Visible] using ⟨visible, visibleName⟩
  have shaped {name : Text} (plainName : Path.IsPlainName name)
      (visibleName : Path.isHiddenName name = false) :
      Disk.SameShapeAlong first second ((collector.moduleFolder module).join name) :=
    (differ.along_visible along [encode module, encode name] (plainInside plainName)
      (visibleInside visibleName)).sameShape
  have selected {name : Text} (plainName : Path.IsPlainName name)
      (visibleName : Path.isHiddenName name = false) (extension : Text) :
      collector.SameSelected first second (collector.moduleFolder module) extension
        ((collector.moduleFolder module).join name) :=
    sameSelected_of_differHidden differ along _ [encode module, encode name]
      (plainInside plainName) (visibleInside visibleName) extension
  have templates := sameTemplates_of_sameSelected
    (shaped names.templateFolder names.visibleTemplates)
    (selected names.templateFolder names.visibleTemplates _)
    (expansion_agrees_of_differHidden names differ along modular)
  exact templates.sameSources (shaped names.codeFolder names.visibleCode)
    (selected names.codeFolder names.visibleCode _)
    fun _ => sameSelected_of_differHidden differ along _ [encode module] (by simpa using plain)
      (by simpa [Visible] using visible) _

end Hiding

end Collector
end Phrasebook
