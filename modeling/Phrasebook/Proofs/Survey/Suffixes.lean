import Phrasebook.Proofs.Survey.Ignoring

/-!
# Suffixes of files

A survey takes the files with a given suffix, and the suffix of a file is what stands behind the
last dot of its name.  The lookup of includes puts a name, a dot and the suffix together instead.
For a suffix without dots the two notions agree: the selected files are those whose names end with
a dot and the suffix, and every included template below the folder of templates is among them.  A
suffix with a dot is that of no file, so nothing is selected, although includes are still found.
-/

namespace Phrasebook

open Text (encode standsFor_dot standsFor_slash)

namespace Path

/-- The name of the file ends with a dot and a suffix, and something stands in front of them. -/
def HasSuffix (path : Path) (suffix : Text) : Prop :=
  ∃ stem, stem ≠ [] ∧ path.fileName? = some (stem ++ dot :: encode suffix)

variable
  {path : Path}
  {name suffix : Bytes}

/-- The stem of a name is what is left of it in front of the dot and the suffix. -/
theorem exists_stem_iff :
    (∃ stem, stem ≠ [] ∧ name = stem ++ dot :: suffix) ↔
      (dot :: suffix).isSuffixOf name = true ∧ suffix.length + 1 < name.length := by
  rw [List.isSuffixOf_iff_suffix]
  constructor
  · rintro ⟨stem, nonempty, rfl⟩
    have positive := List.length_pos_iff.mpr nonempty
    refine ⟨List.suffix_append stem _, ?_⟩
    simp only [List.length_append, List.length_cons]
    omega
  · rintro ⟨⟨stem, rfl⟩, longer⟩
    refine ⟨stem, ?_, rfl⟩
    rintro rfl
    simp at longer

instance decidableHasSuffix (path : Path) (suffix : Text) : Decidable (path.HasSuffix suffix) :=
  match named : path.fileName? with
  | none => isFalse (by simp [HasSuffix, named])
  | some name =>
      decidable_of_iff
        ((dot :: encode suffix).isSuffixOf name = true ∧ (encode suffix).length + 1 < name.length)
        (by rw [← exists_stem_iff]; simp [HasSuffix, named])

theorem extensionOfName?_eq_some_iff :
    extensionOfName? name = some suffix ↔
      dot ∉ suffix ∧ ∃ stem, stem ≠ [] ∧ name = stem ++ dot :: suffix := by
  unfold extensionOfName?
  constructor
  · intro read
    split at read
    next first rest behind split =>
      obtain rfl := Option.some.inj read
      obtain ⟨whole, absent⟩ := Text.splitLast?_eq_some_iff.mp split
      exact ⟨absent, first :: rest, List.cons_ne_nil first rest, whole⟩
    next => cases read
  · rintro ⟨absent, stem, nonempty, whole⟩
    obtain ⟨first, rest, rfl⟩ := List.exists_cons_of_ne_nil nonempty
    rw [Text.splitLast?_eq_some_iff.mpr ⟨whole, absent⟩]

/-- What stands behind the last dot is the suffix in question if that has no dot itself. -/
theorem textExtension?_eq_some_iff {suffix : Text} :
    path.textExtension? = some suffix ↔ '.' ∉ suffix ∧ path.HasSuffix suffix := by
  have read : path.textExtension? = some suffix ↔ path.extension? = some (encode suffix) := by
    simp only [textExtension?, Option.bind_eq_some_iff, Text.decode?_eq_some_iff, exists_eq_right]
  rw [read, extension?, Option.bind_eq_some_iff, ← standsFor_dot.mem_encode_iff]
  constructor
  · rintro ⟨name, named, read⟩
    obtain ⟨absent, stem, nonempty, rfl⟩ := extensionOfName?_eq_some_iff.mp read
    exact ⟨absent, stem, nonempty, named⟩
  · rintro ⟨absent, stem, nonempty, named⟩
    exact ⟨_, named, extensionOfName?_eq_some_iff.mpr ⟨absent, stem, nonempty, rfl⟩⟩

end Path

namespace Collector

variable
  {collector : Collector}
  {disk : Disk}
  {module suffix : Text}
  {root : Path}
  {names : Location}

theorem isSelected_iff
    {folder file : Path} :
    collector.isSelected folder suffix file = true ↔
      '.' ∉ suffix ∧ file.HasSuffix suffix ∧ collector.isIgnored folder file = false := by
  rw [isSelected, Bool.and_eq_true, decide_eq_true_eq, Bool.not_eq_true',
    Path.textExtension?_eq_some_iff, and_assoc]

/--
A template behind a name that the lookup of includes finds below the folder of templates of a
module, where neither the template nor a folder on the way to it is hidden, a walk can list the
folders on the way, and the template is not ignored.
-/
structure IsFragment
    (collector : Collector)
    (disk : Disk)
    (module name : Text)
    (root : Path)
    (names : Location) : Prop where
  /-- The folder of templates is there. -/
  rooted : collector.templateRoot? disk module = some root
  /-- The folder of templates may be read. -/
  readable : collector.access.mayRead root = true
  /-- The name is plain. -/
  plain : Path.IsPlainName name
  /-- The template is found at the place to which the names lead from the folder. -/
  found : ∃ path, Include.find? collector.settings disk collector.access name = some path ∧
    disk.target path = disk.target root ++ names
  /-- Nothing on the way is hidden. -/
  visible : ∀ other ∈ names, Path.isHidden other = false
  /-- The folders on the way can be listed. -/
  isOpen : Disk.IsOpen collector.access root (disk.target root) names
  /-- The template is not ignored. -/
  notIgnored : collector.isIgnored (collector.moduleFolder module) (names.foldl Path.join root) =
    false

namespace IsFragment

variable
  {name : Text}
  (fragment : collector.IsFragment disk module name root names)
  (noSlash : '/' ∉ collector.settings.templateExtension)

include fragment

theorem find_root : disk.find root = .ok (disk.target root, .folder) := by
  have held : disk.holdsFolder root = true := by
    have rooted := fragment.rooted
    simp only [templateRoot?] at rooted
    split at rooted
    next held => rwa [← Option.some.inj rooted]
    next => cases rooted
  obtain ⟨location, found⟩ := Disk.exists_find_of_holdsFolder held
  obtain rfl : location = disk.target root := (Disk.find_eq_ok found).1
  exact found

/-- The names lead to a file. -/
theorem exists_content :
    ∃ content, disk.node? (disk.target root ++ names) = some (.file content) := by
  obtain ⟨path, found, reached⟩ := fragment.found
  obtain ⟨-, -, -, held⟩ := Include.exists_of_find? found
  obtain ⟨place, content, there⟩ := Disk.holdsFile_iff.mp held
  obtain rfl : place = disk.target path := (Disk.find_eq_ok there).1
  exact ⟨content, reached ▸ (Disk.find_eq_ok there).2⟩

theorem ne_nil : names ≠ [] := by
  rintro rfl
  obtain ⟨content, isFile⟩ := fragment.exists_content
  rw [List.append_nil, (Disk.find_eq_ok fragment.find_root).2] at isFile
  cases isFile

theorem mem_filesBelow : names ∈ disk.filesBelow collector.access root (disk.target root) :=
  Disk.mem_filesBelow.mpr
    ⟨fragment.ne_nil, fragment.visible, fragment.isOpen, fragment.exists_content⟩

include noSlash

theorem plain_file :
    Path.IsPlainName (encode (name ++ '.' :: collector.settings.templateExtension)) := by
  rw [Text.encode_append, standsFor_dot.encode_cons]
  exact fragment.plain.append_dot (mt standsFor_slash.mem_encode_iff.mp noSlash)

/-- The last of the names is that of the include with the suffix. -/
theorem exists_names_eq :
    ∃ inside, names = inside ++ [encode (name ++ '.' :: collector.settings.templateExtension)] := by
  obtain ⟨path, found, reached⟩ := fragment.found
  obtain ⟨other, -, rfl, -⟩ := Include.exists_of_find? found
  rw [Include.candidate, Disk.target_join disk _ (fragment.plain_file noSlash)] at reached
  have last := congrArg List.getLast? reached
  rw [List.getLast?_concat, List.getLast?_append_of_ne_nil _ fragment.ne_nil] at last
  obtain ⟨inside, whole⟩ := List.getLast?_eq_some_iff.mp last.symm
  exact ⟨inside, whole⟩

theorem hasSuffix :
    (names.foldl Path.join root).HasSuffix collector.settings.templateExtension := by
  obtain ⟨inside, rfl⟩ := fragment.exists_names_eq noSlash
  refine ⟨encode name, fragment.plain.nonempty, ?_⟩
  rw [List.foldl_append, ← standsFor_dot.encode_cons, ← Text.encode_append]
  exact Path.fileName?_join _ (fragment.plain_file noSlash)

/-- A template that an include leads to is a template of the module if the suffix has no dot. -/
theorem mem_templateFiles_iff :
    names.foldl Path.join root ∈ collector.templateFiles disk module ↔
      '.' ∉ collector.settings.templateExtension := by
  have walked := Disk.walk_of_find fragment.find_root collector.access
  rw [fragment.readable, Disk.permit, if_pos rfl] at walked
  simp only [templateFiles, selectedBelow, fragment.rooted, Option.bind_some, filesWithExtension,
    walked, Except.map, Except.toOption, Option.getD_some, List.mem_filter, isSelected_iff]
  refine ⟨fun selected => selected.2.1, fun noDot => ⟨?_, noDot, fragment.hasSuffix noSlash,
    fragment.notIgnored⟩⟩
  exact List.mem_map_of_mem fragment.mem_filesBelow

end IsFragment

/--
The files that are selected below a root are, in the order of the walk, those whose names end with
a dot and the suffix and which are not ignored, if the suffix has no dot, and none otherwise.  In
the same way an included template below the folder of templates is among the templates of its module
if and only if the suffix has no dot.
-/
theorem filesWithExtension_has_suffix
    (collector : Collector)
    (disk : Disk) :
    (∀ folder root suffix, collector.filesWithExtension disk folder root suffix =
      (disk.walk collector.access root).map fun walk => walk.files.filter fun path =>
        '.' ∉ suffix ∧ path.HasSuffix suffix ∧ collector.isIgnored folder path = false) ∧
    ∀ module name root names, '/' ∉ collector.settings.templateExtension →
      collector.IsFragment disk module name root names →
      (names.foldl Path.join root ∈ collector.templateFiles disk module ↔
        '.' ∉ collector.settings.templateExtension) := by
  refine ⟨fun folder root suffix => ?_, fun module name root names noSlash fragment =>
    fragment.mem_templateFiles_iff noSlash⟩
  unfold filesWithExtension
  refine congrArg
    (fun select => Except.map (fun walk : Disk.Walk => walk.files.filter select) _)
    (funext fun path => ?_)
  rw [Bool.eq_iff_iff, isSelected_iff, decide_eq_true_eq]

/-- A footer that can be included is a template of its module. -/
theorem filesWithExtension_has_suffix_footer :
    let disk : Disk :=
      (((Disk.blank.graft [] "cms".toList .folder).graft
        [encode "cms".toList] "templates".toList .folder).graft
        [encode "cms".toList, encode "templates".toList] "Includes".toList .folder).graft
        [encode "cms".toList, encode "templates".toList, encode "Includes".toList]
        "Footer.ss".toList (.file [])
    let collector : Collector := { settings := {}, ignored := ["code/O".toList.map .char] }
    let root : Path := (collector.moduleFolder "cms".toList).join "templates".toList
    let names : Location := [encode "Includes".toList, encode "Footer.ss".toList]
    '/' ∉ collector.settings.templateExtension ∧
      collector.IsFragment disk "cms".toList "Footer".toList root names ∧
      names.foldl Path.join root ∈ collector.templateFiles disk "cms".toList := by
  intro disk collector root names
  have plain : Path.IsPlainName "Footer".toList := by constructor <;> decide
  have fragment : collector.IsFragment disk "cms".toList "Footer".toList root names :=
    { rooted := by decide +kernel
      readable := rfl
      plain := plain
      found := ⟨names.foldl Path.join root, by decide +kernel, by decide +kernel⟩
      visible := by decide
      isOpen := Disk.isOpen_cons_iff.mpr
        ⟨by decide +kernel, Disk.isOpen_cons_iff.mpr ⟨by decide +kernel, Disk.isOpen_nil _ _ _⟩⟩
      notIgnored := by decide +kernel }
  exact ⟨by decide, fragment,
    ((filesWithExtension_has_suffix collector disk).2 _ _ _ _ (by decide) fragment).mpr
      (by decide)⟩

/--
A suffix may have a dot.  The only file that is walked ends with it and is found as an include, but
it is not selected.
-/
theorem filesWithExtension_ne :
    let disk : Disk :=
      (((Disk.blank.graft [] "cms".toList .folder).graft
        [encode "cms".toList] "templates".toList .folder).graft
        [encode "cms".toList, encode "templates".toList] "Includes".toList .folder).graft
        [encode "cms".toList, encode "templates".toList, encode "Includes".toList]
        "Footer.html.twig".toList (.file [])
    let settings : Settings := { templateExtension := "html.twig".toList }
    let collector : Collector := { settings, ignored := [] }
    let folder := collector.moduleFolder "cms".toList
    let root := folder.join "templates".toList
    let path := (root.join "Includes".toList).join "Footer.html.twig".toList
    settings.validate = .ok () ∧ settings.patterns = .ok collector.ignored ∧
      disk.walk collector.access root = .ok { files := [path], closed := [] } ∧
      path.HasSuffix settings.templateExtension ∧ collector.isIgnored folder path = false ∧
      Include.find? settings disk collector.access "Footer".toList = some path ∧
      collector.filesWithExtension disk folder root settings.templateExtension = .ok [] := by
  decide +kernel

end Collector
end Phrasebook
