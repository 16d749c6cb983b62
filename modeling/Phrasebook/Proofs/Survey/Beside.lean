import Phrasebook.Proofs.Collection.Modules
import Phrasebook.Proofs.Survey.Sources

/-!
# Folders beside modules

Folders that are no modules lie beside the modules in the base folder.  No survey of a module looks
into them, with one exception: the lookup of includes tries every visible folder.  Surveys on two
disks that differ inside such folders only are the same when the included templates there are.
-/

namespace Phrasebook

open Text (encode)

/-- The settings call the marker and the folders of a module by plain names. -/
structure Settings.HavePlainNames (settings : Settings) : Prop where
  /-- The marker has a plain name. -/
  marker : Path.IsPlainName settings.marker
  /-- The folder of code has a plain name. -/
  codeFolder : Path.IsPlainName settings.codeFolder
  /-- The folder of templates has a plain name. -/
  templateFolder : Path.IsPlainName settings.templateFolder
  /-- The folder of included templates has a plain name. -/
  includeFolder : Path.IsPlainName settings.includeFolder

/-- The settings that are not given have plain names. -/
theorem Settings.havePlainNames_default : ({} : Settings).HavePlainNames := by
  refine ⟨⟨?_, ?_, ?_, ?_⟩, ⟨?_, ?_, ?_, ?_⟩, ⟨?_, ?_, ?_, ?_⟩, ⟨?_, ?_, ?_, ?_⟩⟩ <;> decide

/-- Two disks differ only in what lies inside some folders in a base folder. -/
structure DifferInside (base : Path) (others : Bytes → Prop) (first second : Disk) : Prop where
  /-- The way to the base folder is the same. -/
  along : Disk.AlikeAlong first second base
  /-- What is different lies inside one of the folders. -/
  inside : ∀ location, second.node? location ≠ first.node? location →
    ∃ child name rest, others child ∧ location = first.target base ++ child :: name :: rest

namespace DifferInside

variable
  {base : Path}
  {others : Bytes → Prop}
  {first second : Disk}
  {module : Bytes}
  (differ : DifferInside base others first second)

include differ

theorem node?_child (child : Bytes) :
    second.node? (first.target base ++ [child]) = first.node? (first.target base ++ [child]) := by
  by_contra changed
  obtain ⟨owner, name, rest, -, same⟩ := differ.inside _ changed
  simp at same

theorem node?_module
    (own : ¬others module)
    (names : Location) :
    second.node? (first.target base ++ module :: names) =
      first.node? (first.target base ++ module :: names) := by
  by_contra changed
  obtain ⟨owner, name, rest, isOther, same⟩ := differ.inside _ changed
  rw [List.append_cancel_left_eq, List.cons.injEq] at same
  exact own (same.1 ▸ isOther)

theorem along_child (plain : Path.IsPlainName module) :
    Disk.AlikeAlong first second (base.join module) :=
  differ.along.join plain (differ.node?_child module)

/-- Disks are alike along every way that goes on inside a module. -/
theorem along_module
    (own : ¬others module)
    (plain : Path.IsPlainName module)
    {names : Location}
    (plainInside : ∀ name ∈ names, Path.IsPlainName name) :
    Disk.AlikeAlong first second (names.foldl Path.join (base.join module)) := by
  refine (differ.along_child plain).foldl_join_of_same plainInside fun front _ => ?_
  rw [Disk.target_join first base plain, List.append_assoc]
  exact differ.node?_module own front

theorem along_inside
    (own : ¬others module)
    (plain : Path.IsPlainName module)
    {name : Bytes}
    (plainInside : Path.IsPlainName name) :
    Disk.AlikeAlong first second ((base.join module).join name) := by
  have names : ∀ other ∈ [name], Path.IsPlainName other := by simpa using plainInside
  exact differ.along_module own plain names

theorem list_congr (access : Access) : second.list access base = first.list access base :=
  Disk.list_congr differ.along.sameShape
    (fun name => congrArg Option.isSome (differ.node?_child name)) access

/-- A node that is put inside one of the folders makes no other difference. -/
theorem graft
    {parent : Location}
    {name child inner : Bytes}
    {rest : Location}
    (isOther : others child)
    (place : parent ++ [name] = first.target base ++ child :: inner :: rest)
    (offWay : parent ++ [name] ∉ Disk.way (first.startOf base) (Text.splitAt Path.slash base.bytes))
    (node : Node) :
    DifferInside base others first (second.graft parent name node) := by
  constructor
  · refine ⟨by rw [Disk.here_graft, differ.along.here], fun location member => ?_⟩
    have other : location ≠ parent ++ [name] := fun same => offWay (same ▸ member)
    rw [Disk.node?_graft_of_ne second parent name node other]
    exact differ.along.nodes location member
  · intro location changed
    by_cases here : location = parent ++ [name]
    · exact ⟨child, inner, rest, isOther, here.trans place⟩
    · rw [Disk.node?_graft_of_ne second parent name node here] at changed
      exact differ.inside location changed

end DifferInside

theorem DifferInside.refl (base : Path) (others : Bytes → Prop) (disk : Disk) :
    DifferInside base others disk disk :=
  ⟨.refl disk base, fun _ changed => absurd rfl changed⟩

namespace Collector

variable
  {collector : Collector}
  {others : Bytes → Prop}
  {first second : Disk}
  {module : Text}

/-- The location at which an included template is looked for in a folder. -/
def includedAt (collector : Collector) (base : Location) (child name : Text) : Location :=
  base ++ [encode child, encode collector.settings.templateFolder,
    encode collector.settings.includeFolder,
    encode (name ++ '.' :: collector.settings.templateExtension)]

/-- Some folders hold the same included templates on two disks, as far as they are visible. -/
def SameIncluded
    (collector : Collector)
    (others : Bytes → Prop)
    (first second : Disk) :
    Prop :=
  ∀ child : Text, others child → Path.isHiddenName child = false → ∀ name content,
    let location := collector.includedAt (first.target collector.settings.base) child name
    second.node? location = some (.file content) ↔ first.node? location = some (.file content)

/-- An included template is found alike where the same stands at its location. -/
theorem find_candidate_iff_of_node?
    (names : collector.settings.HavePlainNames)
    {name : Text}
    (plainFile :
      Path.IsPlainName (encode (name ++ '.' :: collector.settings.templateExtension)))
    (looked : Include.IsLookedInto collector.settings first module)
    (base : second.find collector.settings.base =
      .ok (first.target collector.settings.base, .folder))
    (same : ∀ content,
      let location := collector.includedAt (first.target collector.settings.base) module name
      second.node? location = some (.file content) ↔ first.node? location = some (.file content))
    (place : Location)
    (content : Bytes) :
    let path := Include.candidate collector.settings name (collector.settings.base.join module)
    second.find path = .ok (place, .file content) ↔
      first.find path = .ok (place, .file content) := by
  intro path
  have plain : ∀ other ∈ [encode module, encode collector.settings.templateFolder,
      encode collector.settings.includeFolder,
      encode (name ++ '.' :: collector.settings.templateExtension)], Path.IsPlainName other := by
    simpa [-Text.encode_append] using
      ⟨looked.plain, names.templateFolder, names.includeFolder, plainFile⟩
  have reachedFirst : first.find path = .ok (place, .file content) ↔ _ :=
    Disk.find_foldl_join_iff looked.base plain
  have reachedSecond : second.find path = .ok (place, .file content) ↔ _ :=
    Disk.find_foldl_join_iff base plain
  rw [reachedFirst, reachedSecond]
  refine and_congr_right fun _ => and_congr_right fun reached => ?_
  rw [reached]
  exact same content

section Beside

variable
  (differ : DifferInside collector.settings.base others first second)

include differ

/-- Everything on a way into a module and below it is the same. -/
theorem sameSelected_module
    (own : ¬others module)
    {root : Path}
    {inside : Location}
    (along : Disk.AlikeAlong first second root)
    (target : first.target root = first.target collector.settings.base ++ encode module :: inside)
    (folder : Path)
    (extension : Text) :
    collector.SameSelected first second folder extension root := by
  refine .of_same along fun names => ?_
  rw [target, List.append_assoc]
  exact differ.node?_module own _

variable (names : collector.settings.HavePlainNames)

include names

/-- A folder that is a module on one of the disks is one on the other. -/
theorem isModule_congr
    (neither : ∀ child : Text, others child →
      collector.isModule first child = false ∧ collector.isModule second child = false)
    (plain : Path.IsPlainName module) :
    collector.isModule second module = collector.isModule first module := by
  by_cases other : others (encode module)
  · obtain ⟨none, noneOther⟩ := neither module other
    rw [none, noneOther]
  · have folder : Disk.AlikeAlong first second (collector.moduleFolder module) :=
      differ.along_child plain
    have marker : Disk.AlikeAlong first second
        ((collector.moduleFolder module).join collector.settings.marker) :=
      differ.along_inside other plain names.marker
    simp only [isModule]
    rw [Disk.holdsFolder_congr folder, Disk.holdsFile_congr marker]

section Included

variable (included : collector.SameIncluded others first second)

include included

/-- An included template in a folder that is looked into is the same on both disks. -/
theorem find_candidate_iff
    {name : Text}
    (plainFile :
      Path.IsPlainName (encode (name ++ '.' :: collector.settings.templateExtension)))
    (looked : Include.IsLookedInto collector.settings first module)
    (place : Location)
    (content : Bytes) :
    let path := Include.candidate collector.settings name (collector.settings.base.join module)
    second.find path = .ok (place, .file content) ↔
      first.find path = .ok (place, .file content) := by
  have base := looked.base
  rw [← Disk.find_congr differ.along] at base
  -- In another folder what is on the way may differ, but not what is at the end of it.
  refine find_candidate_iff_of_node? names plainFile looked base (fun content => ?_) place content
  by_cases other : others (encode module)
  · exact included module other looked.visible name content
  · have same := differ.node?_module other [encode collector.settings.templateFolder,
      encode collector.settings.includeFolder,
      encode (name ++ '.' :: collector.settings.templateExtension)]
    simp only [includedAt, same]

/-- Templates include the same. -/
theorem expansion_agrees_beside
    (modular : collector.resolver = Include.find? collector.settings)
    (noSlash : '/' ∉ collector.settings.templateExtension) :
    (collector.expansion first).Agrees (collector.expansion second) :=
  expansion_agrees_of_found modular noSlash (by rw [differ.list_congr collector.access])
    fun _ _ looked plainFile _ => find_candidate_iff differ names included plainFile looked

/-- The sources of a survey are the same for a module. -/
theorem sameSources_beside
    (modular : collector.resolver = Include.find? collector.settings)
    (own : ¬others module)
    (plain : Path.IsPlainName module) :
    collector.SameSources first second module := by
  have along {name : Bytes} (plainInside : Path.IsPlainName name) :
      Disk.AlikeAlong first second ((collector.moduleFolder module).join name) :=
    differ.along_inside own plain plainInside
  have target := Disk.target_join first collector.settings.base plain
  have targetInside {name : Bytes} (plainInside : Path.IsPlainName name) :
      first.target ((collector.moduleFolder module).join name) =
        first.target collector.settings.base ++ [encode module, name] :=
    Disk.target_join_join first _ plain plainInside
  have selected {name : Bytes} (plainInside : Path.IsPlainName name) (extension : Text) :
      collector.SameSelected first second (collector.moduleFolder module) extension
        ((collector.moduleFolder module).join name) :=
    sameSelected_module differ own (along plainInside) (targetInside plainInside) _ _
  have templates := sameTemplates_of_sameSelected (along names.templateFolder).sameShape
    (selected names.templateFolder _) (expansion_agrees_beside differ names included modular)
  exact templates.sameSources (along names.codeFolder).sameShape (selected names.codeFolder _)
    fun _ => sameSelected_module differ own (differ.along_child plain) target _ _

end Included

end Beside

end Collector
end Phrasebook
