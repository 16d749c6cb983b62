import Phrasebook.Proofs.Survey.Findings

/-!
# Overwritings

A survey counts an overwriting when a record takes the place of a different one: within a text, when
an include is absorbed, among the maps that are declared, and when a file comes to a module.  These
counts cannot be read off the sequence of all definitions, for they depend on what was merged with
what.  Their sum still tells whether there is any conflict: it is zero exactly when no key is
defined with two different records, wherever the two definitions stand.
-/

namespace Phrasebook

namespace Finding

/-- No key is defined with two different records. -/
def Unanimous (findings : List Finding) : Prop :=
  ∀ key first second,
    (key, first) ∈ definitions findings → (key, second) ∈ definitions findings → first = second

variable
  {findings front behind : List Finding}
  {key : Text}
  {record : Entity.Record}

theorem mem_definitions_append
    {entry : Text × Entity.Record} :
    entry ∈ definitions (front ++ behind) ↔
      entry ∈ definitions front ∨ entry ∈ definitions behind := by
  rw [definitions, List.filterMap_append, List.mem_append]
  rfl

theorem mem_definitions_of_last? (found : last? findings key = some record) :
    (key, record) ∈ definitions findings :=
  List.mem_reverse.mp (Dictionary.mem_of_lookup found)

theorem last?_of_unanimous
    (unanimous : Unanimous findings)
    (member : (key, record) ∈ definitions findings) :
    last? findings key = some record := by
  obtain ⟨last, found⟩ := Dictionary.exists_lookup_of_mem (List.mem_reverse.mpr member)
  rw [unanimous key record last member (mem_definitions_of_last? found)]
  exact found

theorem unanimous_of_definitions_eq_nil (nothing : definitions findings = []) :
    Unanimous findings := by
  intro key first second member
  rw [nothing] at member
  exact absurd member List.not_mem_nil

/-- One definition by itself has nothing to differ from. -/
theorem unanimous_singleton (finding : Finding) : Unanimous [finding] := by
  intro key first second member other
  cases finding with
  | omission warning => exact absurd member List.not_mem_nil
  | definition name record =>
      have one : definitions [.definition name record] = [(name, record)] := rfl
      rw [one, List.mem_singleton, Prod.mk.injEq] at member other
      rw [member.2, other.2]

/-- A map has one record for each key. -/
theorem unanimous_ofMap (entities : Entity.Map) : Unanimous (ofMap entities) := by
  have same : ∀ key record, (key, record) ∈ definitions (ofMap entities) →
      entities.get? key = some record := by
    intro key record member
    simp only [definitions, ofMap, List.mem_filterMap, List.mem_map] at member
    obtain ⟨_, ⟨⟨name, value⟩, inside, rfl⟩, found⟩ := member
    rw [entity?, Option.some.injEq, Prod.mk.injEq] at found
    obtain ⟨rfl, rfl⟩ := found
    exact Dictionary.get?_eq_some_iff.mpr inside
  intro key first second member other
  rw [← Option.some.injEq, ← same key first member, same key second other]

/--
Findings that follow others conflict with none if neither list has a conflict of its own and they
end with the same record of each key that both define.
-/
theorem unanimous_append_iff :
    Unanimous (front ++ behind) ↔
      Unanimous front ∧ Unanimous behind ∧
        ∀ key first second, last? front key = some first → last? behind key = some second →
          first = second := by
  constructor
  · intro unanimous
    refine ⟨?_, ?_, ?_⟩
    · intro key first second member other
      exact unanimous key first second (mem_definitions_append.mpr (.inl member))
        (mem_definitions_append.mpr (.inl other))
    · intro key first second member other
      exact unanimous key first second (mem_definitions_append.mpr (.inr member))
        (mem_definitions_append.mpr (.inr other))
    · intro key first second found later
      exact unanimous key first second
        (mem_definitions_append.mpr (.inl (mem_definitions_of_last? found)))
        (mem_definitions_append.mpr (.inr (mem_definitions_of_last? later)))
  · rintro ⟨early, late, across⟩ key first second member other
    rcases mem_definitions_append.mp member with member | member <;>
      rcases mem_definitions_append.mp other with other | other
    · exact early key first second member other
    · exact across key first second (last?_of_unanimous early member)
        (last?_of_unanimous late other)
    · exact (across key second first (last?_of_unanimous early other)
        (last?_of_unanimous late member)).symm
    · exact late key first second member other

/-- Counts of two maps and of their merge are all zero if no definition of either conflicts. -/
theorem count_merge_eq_zero_iff
    {map incoming : Entity.Map}
    (defines : ∀ key, map.get? key = last? front key)
    (definesLater : ∀ key, incoming.get? key = last? behind key)
    {count later : Nat}
    (counts : count = 0 ↔ Unanimous front)
    (countsLater : later = 0 ↔ Unanimous behind) :
    count + later + (map.merge incoming).2 = 0 ↔ Unanimous (front ++ behind) := by
  have across : (map.merge incoming).2 = 0 ↔
      ∀ key first second, last? front key = some first → last? behind key = some second →
        first = second := by
    rw [Entity.Map.snd_merge_eq_zero_iff]
    apply forall_congr'
    intro key
    rw [defines, definesLater]
  rw [unanimous_append_iff, ← counts, ← countsLater, ← across]
  omega

end Finding

/-! ## Harvests -/

/-- A harvest accounts for findings: it tells of them and counts nothing if they do not conflict. -/
structure Harvest.Accounts (harvest : Harvest) (findings : List Finding) : Prop
    extends harvest.Tells findings where
  /-- No overwriting is counted exactly when there is no conflict. -/
  overwritten : harvest.overwritten = 0 ↔ Finding.Unanimous findings

namespace Harvest.Accounts

variable {harvest later : Harvest} {findings others : List Finding}

theorem nothing : Harvest.Accounts {} [] :=
  ⟨.nothing, iff_of_true rfl (Finding.unanimous_of_definitions_eq_nil rfl)⟩

theorem absorb
    (accounts : harvest.Accounts findings)
    (accountsLater : later.Accounts others) :
    (harvest.absorb later).Accounts (findings ++ others) := by
  refine ⟨accounts.toTells.absorb accountsLater.toTells, ?_⟩
  exact Finding.count_merge_eq_zero_iff accounts.entities accountsLater.entities
    accounts.overwritten accountsLater.overwritten

theorem warn
    (accounts : harvest.Accounts findings)
    (warning : Warning) :
    (harvest.warn warning).Accounts (findings ++ [.omission warning]) := by
  refine ⟨accounts.toTells.warn warning, ?_⟩
  have same : Finding.definitions (findings ++ [.omission warning]) =
      Finding.definitions findings := by
    rw [Finding.definitions, List.filterMap_append]
    exact List.append_nil _
  unfold Finding.Unanimous
  rw [same]
  exact accounts.overwritten

theorem insert
    (accounts : harvest.Accounts findings)
    (key : Text)
    (record : Entity.Record) :
    (harvest.insert key record).Accounts (findings ++ [.definition key record]) := by
  refine ⟨accounts.toTells.insert key record, ?_⟩
  have counted : (harvest.insert key record).overwritten = 0 ↔
      harvest.overwritten = 0 ∧ harvest.entities.overwrites key record = false := by
    change harvest.overwritten + (harvest.entities.overwrites key record).toNat = 0 ↔ _
    cases harvest.entities.overwrites key record <;> simp
  have last : ∀ other, Finding.last? [.definition key record] other =
      if other = key then some record else none :=
    fun _ => rfl
  rw [counted, accounts.overwritten, Entity.Map.overwrites_eq_false_iff,
    Finding.unanimous_append_iff, accounts.entities]
  apply and_congr_right
  intro _
  constructor
  · intro agrees
    refine ⟨Finding.unanimous_singleton _, ?_⟩
    intro other first second found later
    rw [last] at later
    split at later
    next same =>
      rw [same] at found
      rw [← Option.some.inj later]
      exact agrees first found
    next => cases later
  · rintro ⟨-, across⟩ old found
    exact across key old record found (by rw [last, if_pos rfl])

theorem addCallSite
    (accounts : harvest.Accounts findings)
    (fallback : Option Text)
    (site : CallSite) :
    (harvest.addCallSite fallback site).Accounts (findings ++ [.ofCallSite fallback site]) := by
  unfold Harvest.addCallSite Finding.ofCallSite
  cases Entity.ofCallSite fallback site with
  | ok entity => exact accounts.insert entity.1.text entity.2
  | error cause => exact accounts.warn (.skipped cause)

/-- The harvest of a text accounts for its call sites. -/
theorem ofText
    (function : Text)
    (fallback : Option Text)
    (text : Text) :
    (Harvest.ofText function fallback text).Accounts (Finding.ofText function fallback text) := by
  have accounts : (Harvest.ofText function fallback text).Accounts
      ([] ++ (CallSite.scan function text).flatMap fun occurrence =>
        [Finding.ofCallSite fallback occurrence.site]) :=
    Finding.foldl_induction
      (fun occurrence _ _ _ accounts => accounts.addCallSite fallback occurrence.site) nothing
  rwa [List.nil_append, ← List.map_eq_flatMap] at accounts

end Harvest.Accounts

/-- An expansion accounts for everything that is found on the way. -/
theorem Include.Setting.whole_accounts
    (setting : Setting)
    (chain : Chain)
    (fragment : Fragment) :
    (setting.whole chain fragment).Accounts
      (setting.findings chain fragment.space fragment.text) := by
  apply whole_induction setting Harvest.Accounts.nothing
  · intro harvest findings accounts warning
    exact accounts.warn warning
  · intro harvest findings accounts later others accountsLater
    exact accounts.absorb accountsLater
  · intro function fallback text
    exact Harvest.Accounts.ofText function fallback text

/-! ## Surveys -/

/-- A survey accounts for files and findings: it tells of them and sees whether they conflict. -/
structure Survey.Accounts
    (survey : Survey)
    (disk : Disk)
    (access : Access)
    (files : List Path)
    (findings : List Finding) : Prop
    extends survey.Tells disk access files findings where
  /-- No overwriting is counted exactly when there is no conflict. -/
  overwritten : survey.overwritten = 0 ↔ Finding.Unanimous findings

namespace Survey.Accounts

variable
  {survey : Survey}
  {disk : Disk}
  {access : Access}
  {files : List Path}
  {findings : List Finding}

theorem start (module : Text) (disk : Disk) (access : Access) :
    Survey.Accounts { module } disk access [] [] :=
  ⟨.start module disk access, iff_of_true rfl (Finding.unanimous_of_definitions_eq_nil rfl)⟩

/-- Lines of the log are not counted. -/
theorem noteAll
    (accounts : survey.Accounts disk access files findings)
    (lines : List Log.Line) :
    (survey.noteAll lines).Accounts disk access files findings :=
  ⟨accounts.toTells.noteAll lines, accounts.overwritten⟩

theorem note
    (accounts : survey.Accounts disk access files findings)
    (line : Log.Line) :
    (survey.note line).Accounts disk access files findings :=
  accounts.noteAll [line]

/-- A map that is merged in brings its definitions and its conflicts. -/
theorem merge
    (accounts : survey.Accounts disk access files findings)
    {entities : Entity.Map}
    {others : List Finding}
    (defines : ∀ key, entities.get? key = Finding.last? others key)
    (complete : Finding.warnings others = [])
    {overwritten : Nat}
    (counts : overwritten = 0 ↔ Finding.Unanimous others) :
    (survey.merge entities overwritten).Accounts disk access files (findings ++ others) := by
  refine ⟨accounts.toTells.merge defines complete overwritten, ?_⟩
  have counted :=
    Finding.count_merge_eq_zero_iff accounts.entities defines accounts.overwritten counts
  rwa [Nat.add_assoc] at counted

/-- A file that is visited brings its conflicts, if it can be read. -/
theorem visit
    (accounts : survey.Accounts disk access files findings)
    {harvest : Path → Text → Harvest}
    {found : Path → Text → List Finding}
    (harvestAccounts : ∀ path text, (harvest path text).Accounts (found path text))
    (path : Path) :
    (survey.visit disk access harvest path).Accounts disk access (files ++ [path])
      (findings ++ disk.findingsIn access found path) := by
  refine ⟨accounts.toTells.visit (fun path text => (harvestAccounts path text).toTells) path, ?_⟩
  unfold Survey.visit Disk.findingsIn
  cases disk.readLossy access path with
  | error cause =>
      rw [List.append_nil]
      exact accounts.overwritten
  | ok text =>
      have own := harvestAccounts path text
      have counted := Finding.count_merge_eq_zero_iff accounts.entities own.entities
        accounts.overwritten own.overwritten
      rwa [Nat.add_assoc] at counted

/-- Files that are visited one after the other bring their conflicts and those between them. -/
theorem foldl_visit
    (accounts : survey.Accounts disk access files findings)
    {harvest : Path → Text → Harvest}
    {found : Path → Text → List Finding}
    (harvestAccounts : ∀ path text, (harvest path text).Accounts (found path text))
    (visited : List Path) :
    (visited.foldl (Survey.visit disk access harvest) survey).Accounts disk access
      (files ++ visited) (findings ++ visited.flatMap (disk.findingsIn access found)) := by
  induction visited generalizing survey files findings with
  | nil => simpa using accounts
  | cons path visited ih =>
      have later := ih (accounts.visit harvestAccounts path)
      rwa [List.append_assoc, List.append_assoc, ← List.flatMap_cons] at later

end Survey.Accounts

namespace Collector

variable
  {collector : Collector}
  {disk : Disk}
  {survey : Survey}
  {files : List Path}
  {findings : List Finding}

/-- The selected files below a folder bring their conflicts. -/
theorem visitFolder_accounts
    (accounts : survey.Accounts disk collector.access files findings)
    {extension : Text}
    {harvest : Path → Text → Harvest}
    {found : Path → Text → List Finding}
    (harvestAccounts : ∀ path text, (harvest path text).Accounts (found path text))
    (root : Path) :
    (collector.visitFolder disk extension harvest root survey).Accounts disk collector.access
      (files ++ collector.selectedBelow disk survey.module extension (some root))
      (findings ++ (collector.selectedBelow disk survey.module extension (some root)).flatMap
        (disk.findingsIn collector.access found)) := by
  simp only [visitFolder, selectedBelow, Option.bind_some]
  cases collector.filesWithExtension disk (collector.moduleFolder survey.module) root extension with
  | error cause =>
      simp only [Except.toOption, Option.getD_none, List.append_nil, List.flatMap_nil]
      exact accounts.note _
  | ok selected => exact (accounts.noteAll _).foldl_visit harvestAccounts selected

theorem visitCode_accounts (accounts : survey.Accounts disk collector.access files findings) :
    (collector.visitCode disk survey).Accounts disk collector.access
      (files ++ collector.codeFiles disk survey.module)
      (findings ++ collector.findingsOfCode disk survey.module) := by
  unfold visitCode findingsOfCode codeFiles
  cases collector.codeRoot? disk survey.module with
  | none => simpa [selectedBelow] using accounts
  | some root =>
      apply visitFolder_accounts accounts
      intro path text
      exact Harvest.Accounts.ofText _ none text

theorem visitTemplates_accounts
    (accounts : survey.Accounts disk collector.access files findings) :
    (collector.visitTemplates disk survey).Accounts disk collector.access
      (files ++ collector.templateFiles disk survey.module)
      (findings ++ collector.findingsOfTemplates disk survey.module) := by
  unfold visitTemplates findingsOfTemplates templateFiles
  cases collector.templateRoot? disk survey.module with
  | none => simpa [selectedBelow] using accounts
  | some root =>
      apply visitFolder_accounts accounts
      intro path text
      exact (collector.expansion disk).whole_accounts [path.components]
        ⟨path.components, path.textName?.getD [], text⟩

/-- Maps that are merged one after the other count nothing if no two of their entries conflict. -/
theorem snd_mergeAll_eq_zero_iff
    (state : Entity.Map × Nat)
    (findings : List Finding)
    (defines : ∀ key, state.1.get? key = Finding.last? findings key)
    (counts : state.2 = 0 ↔ Finding.Unanimous findings)
    (maps : List Entity.Map) :
    (Declared.mergeAll state maps).2 = 0 ↔
      Finding.Unanimous (findings ++ maps.flatMap Finding.ofMap) := by
  induction maps generalizing state findings with
  | nil =>
      rw [List.flatMap_nil, List.append_nil]
      exact counts
  | cons map maps ih =>
      rw [List.flatMap_cons, ← List.append_assoc]
      refine ih ((state.1.merge map).1, state.2 + (state.1.merge map).2)
        (findings ++ Finding.ofMap map) ?_ ?_
      · intro key
        rw [Entity.Map.get?_merge, Finding.last?_append, Finding.last?_ofMap, defines]
      · have own : (0 : Nat) = 0 ↔ Finding.Unanimous (Finding.ofMap map) :=
          iff_of_true rfl (Finding.unanimous_ofMap map)
        have definesOwn : ∀ key, map.get? key = Finding.last? (Finding.ofMap map) key :=
          fun key => (Finding.last?_ofMap map key).symm
        have counted := Finding.count_merge_eq_zero_iff defines definesOwn counts own
        rwa [Nat.add_zero] at counted

theorem visitDeclared_accounts
    (accounts : survey.Accounts disk collector.access files findings) :
    (collector.visitDeclared survey).Accounts disk collector.access files
      (findings ++ collector.findingsOfDeclared survey.module) := by
  have empty : Finding.Unanimous [] := Finding.unanimous_of_definitions_eq_nil rfl
  refine accounts.merge ?_ (warnings_findingsOfDeclared collector survey.module) ?_
  · intro key
    exact (get?_mergeAll _ _ key).trans Option.or_none
  · exact snd_mergeAll_eq_zero_iff (Dictionary.empty, 0) [] (fun _ => rfl) (iff_of_true rfl empty) _

theorem reportOverwritings_accounts
    (accounts : survey.Accounts disk collector.access files findings) :
    (reportOverwritings survey).Accounts disk collector.access files findings := by
  unfold reportOverwritings
  split
  · exact accounts
  · exact accounts.note _

/-- A survey accounts for everything that is found for its module. -/
theorem survey_accounts (collector : Collector) (disk : Disk) (module : Text) :
    (collector.survey disk module).Accounts disk collector.access
      (collector.codeFiles disk module ++ collector.templateFiles disk module)
      (collector.findings disk module) := by
  have begun := (Survey.Accounts.start module disk collector.access).note
    (Log.info ("Processing module '".toList ++ module ++ "'".toList))
  have surveyed := visitTemplates_accounts (visitDeclared_accounts (visitCode_accounts begun))
  rw [module_visitDeclared, module_visitCode] at surveyed
  exact reportOverwritings_accounts surveyed

/--
A survey counts no overwriting exactly when no key is defined with two different records among
everything that is found for the module: in its code, in what is declared for it, and in its
templates and whatever they include, each time that it is included.
-/
theorem survey_overwritten_eq_zero_iff
    (collector : Collector)
    (disk : Disk)
    (module : Text) :
    (collector.survey disk module).overwritten = 0 ↔
      Finding.Unanimous (collector.findings disk module) :=
  (survey_accounts collector disk module).overwritten

end Collector
end Phrasebook
