import Phrasebook.Proofs.Disk.Walk
import Phrasebook.Proofs.Survey.Findings

/-!
# Surveys that agree

Two surveys agree when they differ in their counts of files and in their logs only.  A file from
which nothing is harvested makes no other difference, so it does not matter whether it is visited.
What a survey has from a folder depends on the selected files below it and on their texts.
-/

namespace Phrasebook

open Outcome

namespace Survey

/-- Surveys with the same entities and the same counts of overwritings and warnings. -/
structure Agrees (first second : Survey) : Prop where
  /-- They are about the same module. -/
  module : second.module = first.module
  /-- They have the same entities. -/
  entities : second.entities = first.entities
  /-- They count the same overwritings. -/
  overwritten : second.overwritten = first.overwritten
  /-- They count the same warnings. -/
  warnings : second.warnings = first.warnings

namespace Agrees

variable {first second third : Survey}

@[refl]
theorem refl (survey : Survey) : Agrees survey survey :=
  ⟨rfl, rfl, rfl, rfl⟩

theorem symm (agrees : Agrees first second) : Agrees second first :=
  ⟨agrees.module.symm, agrees.entities.symm, agrees.overwritten.symm, agrees.warnings.symm⟩

theorem trans (agrees : Agrees first second) (later : Agrees second third) : Agrees first third :=
  ⟨later.module.trans agrees.module, later.entities.trans agrees.entities,
    later.overwritten.trans agrees.overwritten, later.warnings.trans agrees.warnings⟩

/-- Lines of the log make no difference. -/
theorem noteAll (agrees : Agrees first second) (lines others : List Log.Line) :
    Agrees (first.noteAll lines) (second.noteAll others) :=
  ⟨agrees.module, agrees.entities, agrees.overwritten, agrees.warnings⟩

theorem note (agrees : Agrees first second) (line other : Log.Line) :
    Agrees (first.note line) (second.note other) :=
  agrees.noteAll [line] [other]

theorem merge
    (agrees : Agrees first second)
    (entities : Entity.Map)
    (overwritten : Nat) :
    Agrees (first.merge entities overwritten) (second.merge entities overwritten) := by
  refine ⟨agrees.module, ?_, ?_, agrees.warnings⟩
  · simp only [Survey.merge, agrees.entities]
  · simp only [Survey.merge, agrees.entities, agrees.overwritten]

variable
  {disk : Disk}
  {access : Access}
  {harvest : Path → Text → Harvest}

theorem visit (agrees : Agrees first second) (path : Path) :
    Agrees (first.visit disk access harvest path) (second.visit disk access harvest path) := by
  unfold Survey.visit
  split
  · exact ⟨agrees.module, agrees.entities, agrees.overwritten,
      congrArg (· + 1) agrees.warnings⟩
  next text _ =>
    have merged := agrees.merge (harvest path text).entities (harvest path text).overwritten
    exact ⟨merged.module, merged.entities, merged.overwritten,
      congrArg (· + (harvest path text).warnings.length) agrees.warnings⟩

theorem foldl_visit (agrees : Agrees first second) (files : List Path) :
    Agrees (files.foldl (Survey.visit disk access harvest) first)
      (files.foldl (Survey.visit disk access harvest) second) := by
  induction files generalizing first second with
  | nil => exact agrees
  | cons path files ih => exact ih (agrees.visit path)

end Agrees

/-- A file that can be read and from which nothing is harvested. -/
def IsSilent
    (disk : Disk)
    (access : Access)
    (harvest : Path → Text → Harvest)
    (path : Path) :
    Prop :=
  ∃ text, disk.readLossy access path = .ok text ∧ harvest path text = {}

variable
  {disk other : Disk}
  {access : Access}
  {harvest otherHarvest : Path → Text → Harvest}
  {files : List Path}

theorem agrees_visit_of_isSilent
    {path : Path}
    (silent : IsSilent disk access harvest path)
    (survey : Survey) :
    Agrees survey (survey.visit disk access harvest path) := by
  obtain ⟨text, read, nothing⟩ := silent
  rw [visit, read]
  simp only [nothing]
  refine ⟨rfl, ?_, ?_, rfl⟩ <;> simp [absorb, merge, Entity.Map.merge_eq_foldl, Dictionary.empty]

/-- Silent files can be left out of a visit. -/
theorem agrees_foldl_visit_filter
    {keep : Path → Bool}
    (silent : ∀ path ∈ files, keep path = false → IsSilent disk access harvest path)
    (survey : Survey) :
    Agrees ((files.filter keep).foldl (visit disk access harvest) survey)
      (files.foldl (visit disk access harvest) survey) := by
  induction files generalizing survey with
  | nil => exact .refl survey
  | cons path files ih =>
      have later := fun survey =>
        ih (fun other member => silent other (List.mem_cons_of_mem path member)) survey
      cases kept : keep path with
      | true =>
          rw [List.filter_cons_of_pos kept]
          exact later _
      | false =>
          rw [List.filter_cons_of_neg (by simp [kept]), List.foldl_cons]
          have passed := agrees_visit_of_isSilent (silent path List.mem_cons_self kept) survey
          exact (passed.foldl_visit _).trans (later _)

/-- Files with the same texts and the same harvests are visited alike. -/
theorem foldl_visit_congr
    (read : ∀ path ∈ files, other.readLossy access path = disk.readLossy access path)
    (harvested : ∀ path ∈ files, ∀ text, otherHarvest path text = harvest path text)
    (survey : Survey) :
    files.foldl (visit other access otherHarvest) survey =
      files.foldl (visit disk access harvest) survey := by
  refine List.foldl_ext _ _ _ fun survey path member => ?_
  unfold visit
  rw [read path member]
  simp only [harvested path member]

end Survey

namespace Collector

/--
Two disks are alike below a root as far as a survey goes: their folders are the same, and the
selected files that are to be kept lie on both of them.
-/
structure AlikeBelow
    (collector : Collector)
    (first second : Disk)
    (module : Path)
    (extension : Text)
    (keep : Path → Bool)
    (root : Path) : Prop where
  /-- The root is the same. -/
  along : Disk.AlikeAlong first second root
  /-- Folders stay. -/
  kept : ∀ names, first.node? (first.target root ++ names) = some .folder →
    second.node? (first.target root ++ names) = some .folder
  /-- Where a file would be selected, there is the same. -/
  nodes : ∀ names, collector.isSelected module extension (names.foldl Path.join root) = true →
    keep (names.foldl Path.join root) = true →
      second.node? (first.target root ++ names) = first.node? (first.target root ++ names)

variable
  {collector : Collector}
  {first second : Disk}
  {module root : Path}
  {extension : Text}
  {keep : Path → Bool}

/-- Where everything below a root is the same, nothing has to be left out. -/
theorem AlikeBelow.of_same
    (along : Disk.AlikeAlong first second root)
    (same : ∀ names, second.node? (first.target root ++ names) =
      first.node? (first.target root ++ names)) :
    collector.AlikeBelow first second module extension keep root :=
  ⟨along, fun names present => (same names).trans present, fun names _ _ => same names⟩

/-- The selected files that are to be kept are the same. -/
theorem filter_filesWithExtension_congr
    (alike : collector.AlikeBelow first second module extension keep root) :
    (collector.filesWithExtension second module root extension).map (List.filter keep) =
      (collector.filesWithExtension first module root extension).map (List.filter keep) := by
  unfold filesWithExtension Disk.walk
  rw [Disk.find_congr alike.along]
  cases Disk.permit (collector.access.mayRead root) root with
  | error cause => rfl
  | ok =>
      cases found : first.find root with
      | error cause => rfl
      | ok place =>
          obtain ⟨location, node⟩ := place
          cases node with
          | file content => rfl
          | folder =>
              have reached : location = first.target root := (Disk.find_eq_ok found).1
              subst reached
              simp only [bind, Except.bind, Except.map, List.filter_filter, List.filter_map]
              refine congrArg (fun names => Except.ok (List.map _ names)) ?_
              refine Disk.filter_filesBelow_congr fun names selected => ?_
              rw [Function.comp_apply, Bool.and_eq_true] at selected
              rw [Disk.mem_filesBelow, Disk.mem_filesBelow,
                alike.nodes names selected.2 selected.1]

/-- A selected file lies behind a way of names below the root. -/
theorem exists_of_mem_filesWithExtension
    {disk : Disk}
    {files : List Path}
    (selected : collector.filesWithExtension disk module root extension = .ok files)
    {path : Path}
    (member : path ∈ files) :
    collector.isSelected module extension path = true ∧
      ∃ names ∈ disk.filesBelow collector.access root (disk.target root),
        path = names.foldl Path.join root := by
  obtain ⟨walked, found, rfl⟩ := map_eq_ok_iff.mp selected
  obtain ⟨member, isSelected⟩ := List.mem_filter.mp member
  refine ⟨isSelected, ?_⟩
  obtain ⟨_, -, found⟩ := bind_eq_ok_iff.mp found
  split at found
  next location reached =>
    rw [Except.ok.injEq] at found
    subst found
    obtain ⟨names, below, rfl⟩ := List.mem_map.mp member
    have target : location = disk.target root := (Disk.find_eq_ok reached).1
    exact ⟨names, target ▸ below, rfl⟩
  next => simp at found

/-- The selected files that are to be kept have the same texts. -/
theorem readLossy_of_mem_filesWithExtension
    (alike : collector.AlikeBelow first second module extension keep root)
    {files : List Path}
    (selected : collector.filesWithExtension first module root extension = .ok files)
    {path : Path}
    (member : path ∈ files)
    (isKept : keep path = true) :
    second.readLossy collector.access path = first.readLossy collector.access path := by
  obtain ⟨isSelected, names, below, rfl⟩ := exists_of_mem_filesWithExtension selected member
  obtain ⟨-, -, -, content, present⟩ := Disk.mem_filesBelow.mp below
  refine Disk.readLossy_congr (alike.along.foldl_join alike.kept ?_ ?_) collector.access
  · rw [present]
    rfl
  · exact alike.nodes names isSelected isKept

/-- Code is read from the folder of code, or from the module of the framework as a whole. -/
theorem of_codeRoot?
    {disk : Disk}
    {name : Text}
    (found : collector.codeRoot? disk name = some root) :
    root = (collector.moduleFolder name).join collector.settings.codeFolder ∨
      name = collector.settings.framework ∧ root = collector.moduleFolder name := by
  simp only [codeRoot?] at found
  split at found
  · exact .inl (Option.some.inj found).symm
  · split at found
    next framework => exact .inr ⟨framework, (Option.some.inj found).symm⟩
    next => cases found

/-- A file that is read for code lies behind a way of names below the folder of code. -/
theorem exists_of_mem_codeFiles
    {disk : Disk}
    {name : Text}
    {path : Path}
    (member : path ∈ collector.codeFiles disk name) :
    ∃ root names, collector.codeRoot? disk name = some root ∧
      names ∈ disk.filesBelow collector.access root (disk.target root) ∧
        path = names.foldl Path.join root := by
  rw [codeFiles, selectedBelow] at member
  cases rooted : collector.codeRoot? disk name with
  | none => simp [rooted] at member
  | some root =>
      rw [rooted, Option.bind_some] at member
      cases selected : collector.filesWithExtension disk (collector.moduleFolder name) root
        collector.settings.codeExtension with
      | error cause => simp [selected, Except.toOption] at member
      | ok files =>
          rw [selected] at member
          obtain ⟨-, names, below, same⟩ := exists_of_mem_filesWithExtension selected member
          exact ⟨root, names, rfl, below, same⟩

variable {harvest otherHarvest : Path → Text → Harvest}

/-- Two disks hold the same selected files below a root, and a walk passes over the same. -/
structure SameSelected
    (collector : Collector)
    (first second : Disk)
    (module : Path)
    (extension : Text)
    (root : Path) : Prop where
  /-- The files are the same. -/
  files : collector.filesWithExtension second module root extension =
    collector.filesWithExtension first module root extension
  /-- The texts are the same. -/
  texts : ∀ files, collector.filesWithExtension first module root extension = .ok files →
    ∀ path ∈ files,
      second.readLossy collector.access path = first.readLossy collector.access path
  /-- The folders that cannot be listed are the same. -/
  closed : second.passedOver collector.access root = first.passedOver collector.access root

/-- Disks that are the same below a root hold the same selected files there. -/
theorem SameSelected.of_same
    (along : Disk.AlikeAlong first second root)
    (same : ∀ names, second.node? (first.target root ++ names) =
      first.node? (first.target root ++ names)) :
    collector.SameSelected first second module extension root := by
  have alike : collector.AlikeBelow first second module extension (fun _ => true) root :=
    .of_same along same
  have files := filter_filesWithExtension_congr alike
  rw [map_filter_true, map_filter_true] at files
  refine ⟨files, fun _ selected _ member =>
    readLossy_of_mem_filesWithExtension alike selected member rfl,
    Disk.passedOver_congr along.sameShape (fun names _ => ?_) collector.access⟩
  rw [same]

/-- Folders with the same selected files are visited alike. -/
theorem visitFolder_congr
    {survey : Survey}
    (same : collector.SameSelected first second (collector.moduleFolder survey.module) extension
      root)
    (harvested : ∀ path, path.textExtension? = some extension →
      ∀ text, otherHarvest path text = harvest path text) :
    collector.visitFolder second extension otherHarvest root survey =
      collector.visitFolder first extension harvest root survey := by
  simp only [visitFolder]
  rw [same.files, closedLines, same.closed]
  cases selected : collector.filesWithExtension first (collector.moduleFolder survey.module) root
    extension with
  | error cause => rfl
  | ok files =>
      refine Survey.foldl_visit_congr (same.texts files selected) (fun path member => ?_) _
      apply harvested
      have isSelected := (exists_of_mem_filesWithExtension selected member).1
      rw [Collector.isSelected, Bool.and_eq_true, decide_eq_true_eq] at isSelected
      exact isSelected.1

/-- Where the files that are left out are silent, the visits of folders that are alike agree. -/
theorem visitFolder_agrees
    {survey other : Survey}
    (agrees : survey.Agrees other)
    (alike : collector.AlikeBelow first second (collector.moduleFolder survey.module) extension
      keep root)
    (silent : ∀ disk, disk = first ∨ disk = second → ∀ files,
      collector.filesWithExtension disk (collector.moduleFolder survey.module) root extension =
        .ok files →
      ∀ path ∈ files, keep path = false → Survey.IsSilent disk collector.access harvest path) :
    (collector.visitFolder first extension harvest root survey).Agrees
      (collector.visitFolder second extension harvest root other) := by
  have same := filter_filesWithExtension_congr alike
  simp only [visitFolder, agrees.module]
  cases selected : collector.filesWithExtension first (collector.moduleFolder survey.module) root
    extension with
  | error cause =>
      rw [selected] at same
      cases selectedOther : collector.filesWithExtension second
        (collector.moduleFolder survey.module) root extension with
      | error causeOther => exact agrees.note _ _
      | ok files => simp [selectedOther, Except.map] at same
  | ok files =>
      rw [selected] at same
      obtain ⟨others, selectedOther, kept⟩ := map_eq_ok_iff.mp same
      rw [selectedOther]
      have left := Survey.agrees_foldl_visit_filter (silent first (.inl rfl) files selected)
        (survey.noteAll (collector.closedLines first root))
      have right := Survey.agrees_foldl_visit_filter (silent second (.inr rfl) others selectedOther)
        (other.noteAll (collector.closedLines second root))
      rw [kept, Survey.foldl_visit_congr (fun path member => ?_) fun _ _ _ => rfl] at right
      · exact (left.symm.trans ((agrees.noteAll _ _).foldl_visit _)).trans right
      · obtain ⟨member, isKept⟩ := List.mem_filter.mp member
        exact readLossy_of_mem_filesWithExtension alike selected member isKept

/-! ## Steps of a survey on one disk -/

theorem AlikeBelow.refl
    (collector : Collector)
    (disk : Disk)
    (module : Path)
    (extension : Text)
    (keep : Path → Bool)
    (root : Path) :
    collector.AlikeBelow disk disk module extension keep root :=
  .of_same (.refl disk root) fun _ => rfl

variable {survey other : Survey} (agrees : survey.Agrees other)

include agrees

theorem visitDeclared_agrees (collector : Collector) :
    (collector.visitDeclared survey).Agrees (collector.visitDeclared other) := by
  unfold visitDeclared
  rw [agrees.module]
  exact agrees.merge _ _

theorem visitTemplates_agrees (collector : Collector) (disk : Disk) :
    (collector.visitTemplates disk survey).Agrees (collector.visitTemplates disk other) := by
  unfold visitTemplates
  rw [agrees.module]
  split
  · exact agrees
  next root _ =>
    refine visitFolder_agrees agrees (.refl collector disk _ _ (fun _ => true) root) ?_
    exact fun _ _ _ _ _ _ left => absurd left (by simp)

theorem reportOverwritings_agrees :
    (reportOverwritings survey).Agrees (reportOverwritings other) := by
  unfold reportOverwritings
  rw [agrees.overwritten]
  split
  · exact agrees
  · exact agrees.note _ _

end Collector
end Phrasebook
