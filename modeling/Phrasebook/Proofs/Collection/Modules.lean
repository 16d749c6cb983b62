import Phrasebook.Collection
import Phrasebook.Proofs.Table.Storing

/-!
# Modules of a collection

Whether all modules are collected or one, their names are plain and no module comes twice, so the
tables of different modules are different files.
-/

namespace Phrasebook

open Outcome

namespace Collector

variable
  {collector : Collector}
  {disk : Disk}
  {filter : Option Text}
  {names : List Text}

/-- Tables that are not saved elsewhere lie in the modules. -/
theorem saveFolder_eq_base (unsaved : collector.settings.save = none) :
    collector.settings.saveFolder = collector.settings.base := by
  rw [Settings.saveFolder, unsaved, Option.getD_none]

/-- Without a filter the candidates are the names in the base folder that are texts. -/
theorem candidates_none_eq_ok (listed : collector.candidates disk none = .ok names) :
    ∃ location, disk.find collector.settings.base = .ok (location, .folder) ∧
      names = (disk.namesIn location).filterMap Text.decode? := by
  unfold candidates at listed
  split at listed
  · contradiction
  · split at listed
    · simp at listed
    next paths found =>
      obtain ⟨location, reached, rfl⟩ := Disk.list_eq_ok found
      refine ⟨location, reached, ?_⟩
      have same : ∀ name ∈ disk.namesIn location,
          Path.textName? (collector.settings.base.join name) = Text.decode? name :=
        fun name member => Path.textName?_join _
          (Disk.isPlainName_of_isName (Disk.isName_of_mem_namesIn member))
      rw [← Except.ok.inj listed, List.filterMap_map]
      exact List.filterMap_congr same

theorem isPlainName_of_mem_candidates
    (listed : collector.candidates disk filter = .ok names)
    {name : Text}
    (member : name ∈ names) :
    Path.IsPlainName name := by
  cases filter with
  | none =>
      obtain ⟨location, -, rfl⟩ := candidates_none_eq_ok listed
      obtain ⟨bytes, inside, decoded⟩ := List.mem_filterMap.mp member
      obtain rfl := Text.decode?_eq_some_iff.mp decoded
      exact Disk.isPlainName_of_isName (Disk.isName_of_mem_namesIn inside)
  | some path =>
      rw [candidates, Except.ok.injEq] at listed
      subst listed
      exact Path.isPlainName_of_textName? (Option.mem_toList.mp member)

theorem nodup_candidates (listed : collector.candidates disk filter = .ok names) :
    names.Nodup := by
  cases filter with
  | none =>
      obtain ⟨location, -, rfl⟩ := candidates_none_eq_ok listed
      refine (Disk.nodup_namesIn disk location).filterMap fun first second name one other => ?_
      rw [Text.decode?_eq_some_iff.mp one, Text.decode?_eq_some_iff.mp other]
  | some path =>
      rw [candidates, Except.ok.injEq] at listed
      subst listed
      cases (Path.ofText path).textName? <;> simp

/-- Every module that is collected is a module, and has a plain name. -/
theorem of_mem_modules
    {modules : List Text}
    (listed : collector.modules disk filter = .ok modules)
    {module : Text}
    (member : module ∈ modules) :
    Path.IsPlainName module ∧ collector.isModule disk module = true := by
  obtain ⟨names, candidates, rfl⟩ := map_eq_ok_iff.mp listed
  obtain ⟨candidate, accepted⟩ := List.mem_filter.mp member
  exact ⟨isPlainName_of_mem_candidates candidates candidate, accepted⟩

/-- Without a filter every module is collected. -/
theorem mem_modules_of_isModule
    {modules : List Text}
    (listed : collector.modules disk none = .ok modules)
    {module : Text}
    (plain : Path.IsPlainName module)
    (accepted : collector.isModule disk module = true) :
    module ∈ modules := by
  obtain ⟨names, candidates, rfl⟩ := map_eq_ok_iff.mp listed
  obtain ⟨location, found, rfl⟩ := candidates_none_eq_ok candidates
  refine List.mem_filter.mpr ⟨List.mem_filterMap.mpr ⟨Text.encode module,
    Disk.mem_namesIn.mpr ?_, Text.decode?_encode module⟩, accepted⟩
  simp only [isModule, Bool.and_eq_true] at accepted
  obtain ⟨place, inside⟩ := Disk.exists_find_of_holdsFolder accepted.1.2
  obtain ⟨reached, present⟩ := Disk.find_eq_ok inside
  have lies : place = disk.target (collector.settings.base.join module) := reached
  have base : location = disk.target collector.settings.base := (Disk.find_eq_ok found).1
  rw [Disk.target_join disk _ plain, ← base] at lies
  rw [← lies, present]
  rfl

/-- The same modules are collected where the same candidates are accepted. -/
theorem modules_congr_of_isModule
    {other : Disk}
    (same : collector.candidates other filter = collector.candidates disk filter)
    (accepted : ∀ name : Text, Path.IsPlainName name →
      collector.isModule other name = collector.isModule disk name) :
    collector.modules other filter = collector.modules disk filter := by
  unfold modules
  rw [same]
  cases listed : collector.candidates disk filter with
  | error unlisted => rfl
  | ok names =>
      refine congrArg Except.ok (List.filter_congr fun name member => ?_)
      exact accepted name (isPlainName_of_mem_candidates listed member)

/-- Modules are visible, so only visible folders have to be tried. -/
theorem filter_isModule_filterMap
    (collector : Collector)
    (disk : Disk)
    (paths : List Path) :
    (paths.filterMap Path.textName?).filter (collector.isModule disk) =
      ((paths.filter Include.isVisible).filterMap Path.textName?).filter
        (collector.isModule disk) := by
  rw [List.filter_filterMap, List.filter_filterMap, List.filterMap_filter]
  refine List.filterMap_congr fun path _ => ?_
  unfold Include.isVisible
  cases Path.textName? path with
  | none => rfl
  | some name =>
      cases hidden : Path.isHiddenName name with
      | false => simp [hidden]
      | true => simp [Option.filter, isModule, hidden]

/-- The same modules are collected where the same visible folders are listed. -/
theorem modules_congr_of_list
    {other : Disk}
    (listed : (other.list collector.access collector.settings.base).map
        (List.filter Include.isVisible) =
      (disk.list collector.access collector.settings.base).map (List.filter Include.isVisible))
    (accepted : ∀ name : Text, Path.IsPlainName name →
      collector.isModule other name = collector.isModule disk name) :
    collector.modules other filter = collector.modules disk filter := by
  cases filter with
  | some path => exact modules_congr_of_isModule rfl accepted
  | none =>
      unfold modules candidates
      cases found : disk.list collector.access collector.settings.base with
      | error cause =>
          cases foundOther : other.list collector.access collector.settings.base with
          | error causeOther =>
              simp only [found, foundOther, Except.map, Except.error.injEq] at listed
              simp only [listed, Except.map]
          | ok paths => simp [found, foundOther, Except.map] at listed
      | ok paths =>
          cases foundOther : other.list collector.access collector.settings.base with
          | error causeOther => simp [found, foundOther, Except.map] at listed
          | ok others =>
              simp only [found, foundOther, Except.map, Except.ok.injEq] at listed ⊢
              rw [filter_isModule_filterMap, filter_isModule_filterMap collector disk, listed]
              refine List.filter_congr fun name member => accepted name ?_
              obtain ⟨path, -, named⟩ := List.mem_filterMap.mp member
              exact Path.isPlainName_of_textName? named

/-- The same is said about a name that was asked for where the same is a module. -/
theorem complaints_congr_of_isModule
    {other : Disk}
    (accepted : ∀ name : Text, Path.IsPlainName name →
      collector.isModule other name = collector.isModule disk name) :
    collector.complaints other filter = collector.complaints disk filter := by
  unfold complaints
  cases asked : filter.bind fun filter => (Path.ofText filter).textName? with
  | none => rfl
  | some name =>
      obtain ⟨path, -, named⟩ := Option.bind_eq_some_iff.mp asked
      simp only
      rw [accepted name (Path.isPlainName_of_textName? named)]

/-- The one module that is asked for is collected. -/
theorem modules_some
    {module path : Text}
    (asked : (Path.ofText path).textName? = some module)
    (accepted : collector.isModule disk module = true) :
    collector.modules disk (some path) = .ok [module] := by
  simp [modules, candidates, asked, Except.map, accepted]

/-- There is a folder for every module that is collected. -/
theorem exists_find_of_mem_modules
    {modules : List Text}
    (listed : collector.modules disk filter = .ok modules)
    {module : Text}
    (member : module ∈ modules) :
    ∃ location, disk.find (collector.moduleFolder module) = .ok (location, .folder) := by
  have accepted := (of_mem_modules listed member).2
  simp only [isModule, Bool.and_eq_true] at accepted
  exact Disk.exists_find_of_holdsFolder accepted.1.2

/-- Where there is a module, the base folder is there, unless its path has no text. -/
theorem find_base_of_isModule
    {module : Text}
    (nonempty : collector.settings.base.bytes ≠ [])
    (plain : Path.IsPlainName module)
    (accepted : collector.isModule disk module = true) :
    disk.find collector.settings.base = .ok (disk.target collector.settings.base, .folder) := by
  simp only [isModule, Bool.and_eq_true] at accepted
  obtain ⟨location, found⟩ := Disk.exists_find_of_holdsFolder accepted.1.2
  exact Disk.find_of_find_join plain.head?_ne nonempty found

theorem nodup_modules
    {modules : List Text}
    (listed : collector.modules disk filter = .ok modules) :
    modules.Nodup := by
  obtain ⟨names, candidates, rfl⟩ := map_eq_ok_iff.mp listed
  exact (nodup_candidates candidates).filter _

/-- A collection gives the modules their turns, and begins with an empty report. -/
theorem exists_start_of_modules
    {modules : List Text}
    (listed : collector.modules disk filter = .ok modules) :
    ∃ start : Progress, start.disk = disk ∧ start.report = {} ∧
      (collector.run disk filter).disk = (modules.foldl collector.collectModule start).disk ∧
      (collector.run disk filter).result =
        .ok (modules.foldl collector.collectModule start).report := by
  simp only [run, listed]
  exact ⟨_, rfl, rfl, rfl, rfl⟩

/-- The locale of valid settings can be part of a file name. -/
theorem noSlash_of_validate (valid : collector.settings.validate = .ok ()) :
    '/' ∉ collector.settings.locale := by
  intro slash
  have forbidden : (collector.settings.locale.any
      fun char => char = '/' || char = '\x5c' || char = '\x27') = true :=
    List.any_eq_true.mpr ⟨'/', slash, rfl⟩
  simp only [Settings.validate, forbidden, if_true, throw, throwThe, MonadExceptOf.throw, bind,
    Except.bind] at valid
  split at valid
  · simp at valid
  · split at valid <;> simp at valid

/-- The locale of valid settings has characters. -/
theorem locale_ne_nil_of_validate (valid : collector.settings.validate = .ok ()) :
    collector.settings.locale ≠ [] := by
  intro nothing
  simp only [Settings.validate, nothing, Text.isAllBlank, List.all_nil, if_true, throw, throwThe,
    MonadExceptOf.throw, bind, Except.bind] at valid
  split at valid <;> simp at valid

/-- Tables of different modules are different files. -/
theorem target_tablePath_inj
    (noSlash : '/' ∉ collector.settings.locale)
    {first second : Text}
    (plain : Path.IsPlainName first)
    (plainOther : Path.IsPlainName second)
    (same : disk.target (collector.tablePath first) = disk.target (collector.tablePath second)) :
    first = second := by
  rw [tablePath, tablePath, Table.target_pathOf disk _ _ plain noSlash,
    Table.target_pathOf disk _ _ plainOther noSlash, List.append_cancel_left_eq] at same
  exact Text.encode_injective (List.cons.inj same).1

end Collector
end Phrasebook
