import Phrasebook.Include.Expansion
import Phrasebook.Proofs.Harvest
import Phrasebook.Proofs.Include.Coverage

/-!
# Findings

A harvest is made by merging maps into maps, at every include anew.  What it amounts to can be told
without any map: the findings of a text are listed in the order in which a reader meets them, those
of an include in the place of its directive, and the last definition of a key is the one that
counts.  The list of an expansion is one flat sequence, however deep the includes are nested.
-/

namespace Phrasebook

/-- What a text says at one place. -/
inductive Finding where
  /-- An entity is defined. -/
  | definition (key : Text) (record : Entity.Record)
  /-- Something is left out. -/
  | omission (warning : Warning)

namespace Finding

/-- The entity that a finding defines. -/
def entity? : Finding → Option (Text × Entity.Record)
  | definition key record => some (key, record)
  | omission _ => none

/-- The warning about what a finding leaves out. -/
def warning? : Finding → Option Warning
  | definition _ _ => none
  | omission warning => some warning

/-- The definitions among findings, in order. -/
def definitions (findings : List Finding) : List (Text × Entity.Record) :=
  findings.filterMap entity?

/-- The warnings among findings, in order. -/
def warnings (findings : List Finding) : List Warning :=
  findings.filterMap warning?

/-- The record of the last definition of a key. -/
def last? (findings : List Finding) (key : Text) : Option Entity.Record :=
  Dictionary.lookup key (definitions findings).reverse

/-- The record is that of the last definition of the key. -/
def IsLast (findings : List Finding) (key : Text) (record : Entity.Record) : Prop :=
  ∃ front behind, definitions findings = front ++ (key, record) :: behind ∧
    ∀ entry ∈ behind, entry.1 ≠ key

@[simp]
theorem warnings_append (front behind : List Finding) :
    warnings (front ++ behind) = warnings front ++ warnings behind :=
  List.filterMap_append

/-- A later definition goes before an earlier one. -/
theorem last?_append
    (front behind : List Finding)
    (key : Text) :
    last? (front ++ behind) key = (last? behind key).or (last? front key) := by
  rw [last?, definitions, List.filterMap_append, List.reverse_append, Dictionary.lookup_append]
  rfl

theorem last?_eq_some_iff
    {findings : List Finding}
    {key : Text}
    {record : Entity.Record} :
    last? findings key = some record ↔ IsLast findings key record := by
  unfold last? IsLast
  rw [Dictionary.lookup_eq_some_iff_append]
  constructor
  · rintro ⟨front, behind, split, fresh⟩
    refine ⟨behind.reverse, front.reverse, ?_, fun entry member => ?_⟩
    · rw [← List.reverse_reverse (definitions findings), split]
      simp
    · exact fresh entry (List.mem_reverse.mp member)
  · rintro ⟨front, behind, split, fresh⟩
    refine ⟨behind.reverse, front.reverse, by simp [split], fun entry member => ?_⟩
    exact fresh entry (List.mem_reverse.mp member)

/-- What is found at a call site. -/
def ofCallSite (fallback : Option Text) (site : CallSite) : Finding :=
  match Entity.ofCallSite fallback site with
  | .ok (key, record) => .definition key.text record
  | .error cause => .omission (.skipped cause)

/-- What is found in a text, call site by call site. -/
def ofText (function : Text) (fallback : Option Text) (text : Text) : List Finding :=
  (CallSite.scan function text).map fun occurrence => ofCallSite fallback occurrence.site

/-- What a map of entities defines. -/
def ofMap (entities : Entity.Map) : List Finding :=
  entities.entries.map fun entry => .definition entry.1 entry.2

/-- A map defines what it holds. -/
@[simp]
theorem last?_ofMap
    (entities : Entity.Map)
    (key : Text) :
    last? (ofMap entities) key = entities.get? key := by
  have all : definitions (ofMap entities) = entities.entries := by
    rw [definitions, ofMap, List.filterMap_map]
    exact List.filterMap_some
  have same : Dictionary.ofList entities.entries = entities :=
    Dictionary.ofList_eq_of_mem_iff fun _ => Iff.rfl
  rw [last?, all, ← Dictionary.get?_ofList, same]

@[simp]
theorem warnings_ofMap (entities : Entity.Map) : warnings (ofMap entities) = [] := by
  rw [warnings, ofMap, List.filterMap_map]
  exact List.filterMap_eq_nil_iff.mpr fun _ _ => rfl

end Finding

/-! ## Harvests -/

/-- A harvest tells of findings: the last definition of each key, and all warnings. -/
structure Harvest.Tells (harvest : Harvest) (findings : List Finding) : Prop where
  /-- The last definition of a key is what the harvest has for it. -/
  entities : ∀ key, harvest.entities.get? key = Finding.last? findings key
  /-- The warnings are those of the findings. -/
  warnings : harvest.warnings = Finding.warnings findings

namespace Harvest.Tells

variable {harvest later : Harvest} {findings others : List Finding}

theorem nothing : Harvest.Tells {} [] :=
  ⟨fun _ => rfl, rfl⟩

theorem warn
    (tells : harvest.Tells findings)
    (warning : Warning) :
    (harvest.warn warning).Tells (findings ++ [.omission warning]) := by
  refine ⟨fun key => ?_, ?_⟩
  · rw [Finding.last?_append]
    exact tells.entities key
  · rw [Finding.warnings_append, ← tells.warnings]
    rfl

theorem insert
    (tells : harvest.Tells findings)
    (key : Text)
    (record : Entity.Record) :
    (harvest.insert key record).Tells (findings ++ [.definition key record]) := by
  refine ⟨fun other => ?_, ?_⟩
  · rw [Finding.last?_append, ← tells.entities]
    change (harvest.entities.insert key record).get? other = _
    rw [Dictionary.get?_insert]
    by_cases same : other = key <;>
      simp [same, Finding.last?, Finding.definitions, Finding.entity?, Dictionary.lookup]
  · rw [Finding.warnings_append, ← tells.warnings]
    exact (List.append_nil _).symm

theorem absorb
    (tells : harvest.Tells findings)
    (tellsLater : later.Tells others) :
    (harvest.absorb later).Tells (findings ++ others) := by
  refine ⟨fun key => ?_, ?_⟩
  · rw [get?_absorb, Finding.last?_append, tells.entities, tellsLater.entities]
  · rw [Finding.warnings_append, ← tells.warnings, ← tellsLater.warnings]
    rfl

theorem addCallSite
    (tells : harvest.Tells findings)
    (fallback : Option Text)
    (site : CallSite) :
    (harvest.addCallSite fallback site).Tells (findings ++ [.ofCallSite fallback site]) := by
  unfold Harvest.addCallSite Finding.ofCallSite
  cases Entity.ofCallSite fallback site with
  | ok entity => exact tells.insert entity.1.text entity.2
  | error cause => exact tells.warn (.skipped cause)

end Harvest.Tells

/--
What relates harvests to findings, and is kept when a step of a fold brings the findings of its
item, relates the whole fold to all findings in order.
-/
theorem Finding.foldl_induction
    {Item : Type}
    {relates : Harvest → List Finding → Prop}
    {step : Harvest → Item → Harvest}
    {found : Item → List Finding}
    {items : List Item}
    (relatesStep : ∀ item ∈ items, ∀ harvest findings,
      relates harvest findings → relates (step harvest item) (findings ++ found item))
    {harvest : Harvest}
    {findings : List Finding}
    (related : relates harvest findings) :
    relates (items.foldl step harvest) (findings ++ items.flatMap found) := by
  induction items generalizing harvest findings with
  | nil => simpa using related
  | cons item items ih =>
      have first := relatesStep item List.mem_cons_self harvest findings related
      have rest :=
        ih (fun other member => relatesStep other (List.mem_cons_of_mem item member)) first
      rwa [List.append_assoc, ← List.flatMap_cons] at rest

/-- The harvest of a text tells of its call sites. -/
theorem Harvest.ofText_tells
    (function text : Text)
    (fallback : Option Text) :
    (Harvest.ofText function fallback text).Tells (Finding.ofText function fallback text) := by
  have tells : (Harvest.ofText function fallback text).Tells
      ([] ++ (CallSite.scan function text).flatMap fun occurrence =>
        [Finding.ofCallSite fallback occurrence.site]) :=
    Finding.foldl_induction
      (fun occurrence _ _ _ tells => tells.addCallSite fallback occurrence.site) Tells.nothing
  rwa [List.nil_append, ← List.map_eq_flatMap] at tells

/-! ## Expansions -/

namespace Include
namespace Setting

/--
What is found in a template: for each directive what is found in the template that it leads to, if
that can be read and is not on the chain, and then what is found in the text itself.
-/
def findings
    (setting : Setting)
    (chain : Chain)
    (space text : Text) :
    List Finding :=
  ((names text).attach.flatMap fun name =>
      match _resolved : setting.resolve name.1 with
      | none => [.omission (.unresolved name.1)]
      | some path =>
          if _fresh : chain.holds path then
            [.omission (.cycle name.1 path)]
          else
            match _read : setting.disk.readLossy setting.access path with
            | .error cause => [.omission (.unreadable path cause)]
            | .ok inner =>
                setting.findings (path.components :: chain) (setting.space name.1) inner) ++
    Finding.ofText setting.function (some space) text
termination_by setting.height chain text
decreasing_by
  exact height_lt name.2 _resolved (by simpa using _fresh) _read

/-- What is found behind one directive. -/
def findingsBehind
    (setting : Setting)
    (chain : Chain)
    (name : Text) :
    List Finding :=
  match setting.resolve name with
  | none => [.omission (.unresolved name)]
  | some path =>
      if chain.holds path then
        [.omission (.cycle name path)]
      else
        match setting.disk.readLossy setting.access path with
        | .error cause => [.omission (.unreadable path cause)]
        | .ok inner => setting.findings (path.components :: chain) (setting.space name) inner

theorem findings_eq
    (setting : Setting)
    (chain : Chain)
    (space text : Text) :
    setting.findings chain space text =
      (names text).flatMap (setting.findingsBehind chain) ++
        Finding.ofText setting.function (some space) text := by
  -- The names carry proofs for the sake of termination only.
  rw [findings]
  refine congrArg (fun front : List Finding => front ++ _) ?_
  conv_rhs => rw [← List.attach_map_subtype_val (names text), List.flatMap_map]
  congr 1
  funext name
  unfold findingsBehind
  split <;> simp_all
  split <;> simp_all
  split <;> simp_all

/--
What relates harvests to findings, and is kept when one is added to another one, relates an
expansion to everything that is found on the way.
-/
theorem whole_induction
    (setting : Setting)
    {relates : Harvest → List Finding → Prop}
    (nothing : relates {} [])
    (warn : ∀ harvest findings, relates harvest findings → ∀ warning : Warning,
      relates (harvest.warn warning) (findings ++ [.omission warning]))
    (absorb : ∀ harvest findings, relates harvest findings → ∀ later others,
      relates later others → relates (harvest.absorb later) (findings ++ others))
    (ofText : ∀ function fallback text,
      relates (Harvest.ofText function fallback text) (Finding.ofText function fallback text))
    (chain : Chain)
    (fragment : Fragment) :
    relates (setting.whole chain fragment)
      (setting.findings chain fragment.space fragment.text) := by
  induction chain, fragment using chain_induction setting with
  | step chain outer ih =>
      rw [whole_eq, findings_eq]
      refine absorb _ _ ?_ _ _ (ofText _ _ _)
      rw [← List.nil_append (List.flatMap _ _)]
      refine Finding.foldl_induction (fun name included harvest findings related => ?_) nothing
      unfold follow findingsBehind
      cases resolved : setting.resolve name with
      | none => exact warn _ _ related _
      | some path =>
          by_cases known : Chain.holds chain path = true
          · simp only [if_pos known]
            exact warn _ _ related _
          · simp only [if_neg known]
            cases read : setting.disk.readLossy setting.access path with
            | error cause => exact warn _ _ related _
            | ok text =>
                have leads : setting.Leads name ⟨path.components, setting.space name, text⟩ :=
                  ⟨path, resolved, read, rfl, rfl⟩
                have off : path.components ∉ chain := fun member =>
                  known (Chain.holds_iff.mpr member)
                exact absorb _ _ related _ _ (ih _ ⟨name, included, leads⟩ off)

/-- An expansion tells of everything that is found on the way. -/
theorem whole_tells
    (setting : Setting)
    (chain : Chain)
    (fragment : Fragment) :
    (setting.whole chain fragment).Tells
      (setting.findings chain fragment.space fragment.text) := by
  apply whole_induction setting Harvest.Tells.nothing
  · intro harvest findings tells warning
    exact tells.warn warning
  · intro harvest findings tells later others tellsLater
    exact tells.absorb tellsLater
  · intro function fallback text
    exact Harvest.ofText_tells function text fallback

end Setting
end Include
end Phrasebook
