import Phrasebook.Proofs.Path.Relative
import Phrasebook.Proofs.Survey.Beside

/-!
# Ignored files

A file of a module is ignored when its path in the module matches a pattern.  No ignored file is
selected, so a survey does not read it as a file of its module.  There is one exception: the lookup
of includes does not look at the patterns.  Surveys on two disks that differ in the contents of
ignored files only are the same when the included templates are.
-/

namespace Phrasebook

open Text (encode)

namespace Collector

variable
  {collector : Collector}
  {first second : Disk}
  {module : Text}

/-- The names that lead from a module to a file make up a text that a pattern stands for. -/
def Ignores (collector : Collector) (names : Location) : Prop :=
  ∃ text, Text.joinWith [Path.slash] names = encode text ∧
    ∃ pattern ∈ collector.ignored, Glob.isMatch pattern text = true

/-- A file below a folder is passed over when the names that lead to it are ignored. -/
theorem isIgnored_foldl_join
    (folder : Path)
    {names : Location}
    (nonempty : names ≠ [])
    (plain : ∀ name ∈ names, Path.IsPlainName name) :
    collector.isIgnored folder (names.foldl Path.join folder) = true ↔ collector.Ignores names := by
  simp only [isIgnored, Path.relativeTo?_foldl_join folder nonempty plain, Option.getD_some,
    Glob.accepts_eq_isMatch, Ignores, ← Text.decode?_eq_some_iff]
  cases Text.decode? (Text.joinWith [Path.slash] names) with
  | none => simp
  | some text => simp [List.any_eq_true]

/-- Two disks hold the same, but for the contents of ignored files. -/
structure DifferIgnored (collector : Collector) (first second : Disk) : Prop where
  /-- The working folders are the same. -/
  here : second.here = first.here
  /-- There are files and folders at the same locations. -/
  shapes : ∀ location, Disk.SameShapeAt first second location
  /-- What is different is ignored, as a file of the module in which it lies. -/
  ignored : ∀ location, second.node? location ≠ first.node? location →
    ∃ module names,
      location = first.target collector.settings.base ++ module :: names ∧ collector.Ignores names

theorem DifferIgnored.refl (collector : Collector) (disk : Disk) :
    collector.DifferIgnored disk disk :=
  ⟨rfl, fun _ => rfl, fun _ changed => absurd rfl changed⟩

namespace DifferIgnored

variable (differ : collector.DifferIgnored first second)

include differ

theorem shapedAlong (path : Path) : Disk.SameShapeAlong first second path :=
  ⟨differ.here, fun location _ => differ.shapes location⟩

theorem isSome_node? (location : Location) :
    (second.node? location).isSome = (first.node? location).isSome := by
  have same := congrArg Option.isSome (differ.shapes location)
  rwa [Disk.bare?, Disk.bare?, Option.isSome_map, Option.isSome_map] at same

theorem list_congr (access : Access) (path : Path) :
    second.list access path = first.list access path :=
  Disk.list_congr (differ.shapedAlong path) (fun _ => differ.isSome_node? _) access

/-- A walk meets the same files. -/
theorem walk_congr (access : Access) (root : Path) :
    second.walk access root = first.walk access root := by
  refine Disk.walk_congr (differ.shapedAlong root) (fun names => ?_) (Disk.closedBelow_congr ?_)
  · rw [Disk.mem_filesBelow, Disk.mem_filesBelow, Disk.exists_file_iff, Disk.exists_file_iff,
      differ.shapes]
  · intro names _
    rw [← Disk.bare?_eq_folder_iff, differ.shapes, Disk.bare?_eq_folder_iff]

/-- What is not ignored in a module is the same. -/
theorem node?_of_not_ignores
    (plain : Path.IsPlainName module)
    {names : Location}
    (notIgnored : ¬collector.Ignores names) :
    second.node? (first.target (collector.moduleFolder module) ++ names) =
      first.node? (first.target (collector.moduleFolder module) ++ names) := by
  by_contra changed
  obtain ⟨owner, others, place, ignored⟩ := differ.ignored _ changed
  rw [moduleFolder, Disk.target_join first _ plain, List.append_assoc, List.append_cancel_left_eq,
    List.singleton_append, List.cons.injEq] at place
  exact notIgnored (place.2 ▸ ignored)

/-- The selected files in a module are the same, for none of them is ignored. -/
theorem sameSelected
    (plain : Path.IsPlainName module)
    (inside : Location)
    (plainInside : ∀ name ∈ inside, Path.IsPlainName name)
    (extension : Text) :
    collector.SameSelected first second (collector.moduleFolder module) extension
      (inside.foldl Path.join (collector.moduleFolder module)) := by
  refine ⟨by simp only [filesWithExtension, differ.walk_congr], ?_,
    by simp only [Disk.passedOver, differ.walk_congr]⟩
  · intro files selected path member
    obtain ⟨isSelected, names, below, rfl⟩ := exists_of_mem_filesWithExtension selected member
    obtain ⟨nonempty, -, -, content, present⟩ := Disk.mem_filesBelow.mp below
    have plainNames : ∀ name ∈ inside ++ names, Path.IsPlainName name := by
      refine List.forall_mem_append.mpr ⟨plainInside, fun name inNames => ?_⟩
      exact Disk.isPlainName_of_mem_location (by rw [present]; rfl) inNames
    rw [← List.foldl_append] at isSelected ⊢
    have notIgnored : ¬collector.Ignores (inside ++ names) := by
      rw [← isIgnored_foldl_join _ (by simp [nonempty]) plainNames]
      simp only [Collector.isSelected, Bool.and_eq_true, Bool.not_eq_true'] at isSelected
      rw [isSelected.2]
      exact Bool.false_ne_true
    refine Disk.readLossy_congr_of_find ?_ collector.access
    refine Disk.find_congr_of_sameShape (differ.shapedAlong _) ?_
    rw [Disk.target_foldl_join first _ plainNames]
    exact differ.node?_of_not_ignores plain notIgnored

/-- An ignored file may get another content. -/
theorem graft
    {parent names : Location}
    {name child : Bytes}
    (place : parent ++ [name] = first.target collector.settings.base ++ child :: names)
    (ignored : collector.Ignores names)
    (isFile : second.bare? (parent ++ [name]) = some (.file []))
    (content : Bytes) :
    collector.DifferIgnored first (second.graft parent name (.file content)) := by
  refine ⟨by rw [Disk.here_graft, differ.here], fun location => ?_, fun location changed => ?_⟩
  · rw [Disk.SameShapeAt, Disk.bare?_graft_of_file isFile]
    exact differ.shapes location
  · by_cases here : location = parent ++ [name]
    · exact ⟨child, names, here.trans place, ignored⟩
    · rw [Disk.node?_graft_of_ne second parent name _ here] at changed
      exact differ.ignored location changed

section Surveys

variable
  (names : collector.settings.HavePlainNames)
  (included : collector.SameIncluded (fun _ => True) first second)

include names included

/-- Templates include the same. -/
theorem expansion_agrees
    (modular : collector.resolver = Include.find? collector.settings)
    (noSlash : '/' ∉ collector.settings.templateExtension) :
    (collector.expansion first).Agrees (collector.expansion second) := by
  refine expansion_agrees_of_found modular noSlash (by rw [differ.list_congr]) ?_
  intro module name looked plainFile _
  have base : second.find collector.settings.base =
      .ok (first.target collector.settings.base, .folder) := by
    rw [← looked.base]
    apply Disk.find_congr_of_sameShape (differ.shapedAlong _)
    have folder := (Disk.find_eq_ok looked.base).2
    have shape := differ.shapes (first.target collector.settings.base)
    rw [folder, ← Disk.bare?_eq_folder_iff, shape, Disk.bare?_eq_folder_iff, folder]
  exact find_candidate_iff_of_node? names plainFile looked base
    fun content => included module trivial looked.visible name content

/-- The sources of a survey are the same. -/
theorem sameSources
    (modular : collector.resolver = Include.find? collector.settings)
    (plain : Path.IsPlainName module) :
    collector.SameSources first second module := by
  have templates := sameTemplates_of_sameSelected (differ.shapedAlong _)
    (differ.sameSelected plain [_] (by simpa using names.templateFolder) _)
    (differ.expansion_agrees names included modular)
  exact templates.sameSources (differ.shapedAlong _)
    (differ.sameSelected plain [_] (by simpa using names.codeFolder) _)
    fun _ => differ.sameSelected plain [] (by simp) _

end Surveys

end DifferIgnored

end Collector
end Phrasebook
