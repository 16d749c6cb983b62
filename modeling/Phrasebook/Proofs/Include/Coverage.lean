import Mathlib.Logic.Relation
import Phrasebook.Proofs.Disk.Resolve
import Phrasebook.Proofs.Harvest
import Phrasebook.Proofs.Include.Lookup
import Phrasebook.Survey

/-!
# What an expansion covers

An expansion passes over a directive that leads back to its chain, and still covers every template
that can be reached.  On a way that comes back to a template, all up to the last visit can be left
out; what is left avoids that template, so the expansion below it follows the rest of the way.
This needs that templates at the same place are the same, with one text and one namespace: a path
determines the text, and its last component is the namespace.
-/

namespace Phrasebook
namespace Include

open Relation

/-- A template on its way into a harvest. -/
structure Fragment where
  /-- The components of the path to it. -/
  steps : List Component
  /-- The namespace of its bare keys. -/
  space : Text
  /-- Its text. -/
  text : Text

namespace Setting

variable
  {setting : Setting}
  {chain : Chain}
  {outer inner : Fragment}
  {key : Text}
  {record : Entity.Record}

/-- A directive with the name leads to a template that can be read. -/
def Leads (setting : Setting) (name : Text) (inner : Fragment) : Prop :=
  ∃ path,
    setting.resolve name = some path ∧
      setting.disk.readLossy setting.access path = .ok inner.text ∧
      inner.steps = path.components ∧
      inner.space = setting.space name

/-- A directive of the outer template leads to the inner one. -/
def Includes (setting : Setting) (outer inner : Fragment) : Prop :=
  ∃ name ∈ names outer.text, setting.Leads name inner

/-- The harvest of a template without what it includes. -/
def own (setting : Setting) (fragment : Fragment) : Harvest :=
  Harvest.ofText setting.function (some fragment.space) fragment.text

/-- The harvest of a template with what it includes, below a chain. -/
def whole (setting : Setting) (chain : Chain) (fragment : Fragment) : Harvest :=
  setting.expand chain fragment.space fragment.text

theorem whole_eq
    (setting : Setting)
    (chain : Chain)
    (fragment : Fragment) :
    setting.whole chain fragment =
      ((names fragment.text).foldl (setting.follow chain) {}).absorb (setting.own fragment) :=
  setting.expand_eq chain fragment.space fragment.text

/-! ## One template -/

theorem follow_of_leads
    {name : Text}
    (leads : setting.Leads name inner)
    (off : inner.steps ∉ chain)
    (harvest : Harvest) :
    setting.follow chain harvest name =
      harvest.absorb (setting.whole (inner.steps :: chain) inner) := by
  obtain ⟨path, resolved, read, steps, space⟩ := leads
  have unknown : ¬chain.holds path = true := by
    rwa [Chain.holds_iff, ← steps]
  simp only [follow, resolved, if_neg unknown, read, whole, steps, space]

/-- A directive leads on, or it brings in no entity. -/
theorem follow_cases
    (chain : Chain)
    (harvest : Harvest)
    (name : Text) :
    (setting.follow chain harvest name).entities = harvest.entities ∨
      ∃ inner, setting.Leads name inner ∧ inner.steps ∉ chain := by
  unfold follow
  cases resolved : setting.resolve name with
  | none => exact .inl rfl
  | some path =>
      by_cases known : chain.holds path = true
      · simp only [if_pos known]
        exact .inl rfl
      · simp only [if_neg known]
        cases read : setting.disk.readLossy setting.access path with
        | error cause => exact .inl rfl
        | ok text =>
            refine .inr ⟨⟨path.components, setting.space name, text⟩, ?_, ?_⟩
            · exact ⟨path, resolved, read, rfl, rfl⟩
            · exact fun member => known (Chain.holds_iff.mpr member)

theorem get?_foldl_follow
    {list : List Text}
    {harvest : Harvest}
    (found : (list.foldl (setting.follow chain) harvest).entities.get? key = some record) :
    harvest.entities.get? key = some record ∨
      ∃ name ∈ list, ∃ inner, setting.Leads name inner ∧ inner.steps ∉ chain ∧
        (setting.whole (inner.steps :: chain) inner).entities.get? key = some record := by
  induction list generalizing harvest with
  | nil => exact .inl found
  | cons name list ih =>
      rcases ih found with first | ⟨other, member, later⟩
      · rcases follow_cases chain harvest name with same | ⟨inner, leads, off⟩
        · exact .inl (same ▸ first)
        · rw [follow_of_leads leads off, Harvest.get?_absorb, Option.or_eq_some_iff] at first
          rcases first with inside | ⟨-, before⟩
          · exact .inr ⟨name, List.mem_cons_self, inner, leads, off, inside⟩
          · exact .inl before
      · exact .inr ⟨other, List.mem_cons_of_mem name member, later⟩

/-- An entity of an expansion is one of the template, or one of an expansion one step down. -/
theorem get?_whole
    (found : (setting.whole chain outer).entities.get? key = some record) :
    (setting.own outer).entities.get? key = some record ∨
      ∃ inner, setting.Includes outer inner ∧ inner.steps ∉ chain ∧
        (setting.whole (inner.steps :: chain) inner).entities.get? key = some record := by
  rw [whole_eq, Harvest.get?_absorb, Option.or_eq_some_iff] at found
  rcases found with here | ⟨-, below⟩
  · exact .inl here
  · rcases get?_foldl_follow below with nothing | ⟨name, included, inner, leads, below⟩
    · simp at nothing
    · exact .inr ⟨inner, ⟨name, included, leads⟩, below⟩

theorem contains_foldl_follow_of_contains
    (list : List Text)
    {harvest : Harvest}
    (present : harvest.entities.contains key = true) :
    (list.foldl (setting.follow chain) harvest).entities.contains key = true := by
  induction list generalizing harvest with
  | nil => exact present
  | cons name list ih =>
      refine ih ?_
      rcases follow_cases chain harvest name with same | ⟨inner, leads, off⟩
      · rwa [same]
      · rw [follow_of_leads leads off, Harvest.contains_absorb, present, Bool.or_true]

theorem contains_whole_of_own
    (chain : Chain)
    (present : (setting.own outer).entities.contains key = true) :
    (setting.whole chain outer).entities.contains key = true := by
  rw [whole_eq, Harvest.contains_absorb, present, Bool.true_or]

/-- An expansion has the keys of the expansions one step down. -/
theorem contains_whole_of_includes
    (includes : setting.Includes outer inner)
    (off : inner.steps ∉ chain)
    (present : (setting.whole (inner.steps :: chain) inner).entities.contains key = true) :
    (setting.whole chain outer).entities.contains key = true := by
  obtain ⟨name, included, leads⟩ := includes
  obtain ⟨front, behind, split⟩ := List.append_of_mem included
  rw [whole_eq, Harvest.contains_absorb, split, List.foldl_append, List.foldl_cons,
    follow_of_leads leads off, Bool.or_eq_true]
  refine .inr (contains_foldl_follow_of_contains behind ?_)
  rw [Harvest.contains_absorb, present, Bool.true_or]

/-! ## All templates -/

/-- What passes from the expansions one step down to an expansion is true of all expansions. -/
theorem chain_induction
    (setting : Setting)
    {motive : Chain → Fragment → Prop}
    (step : ∀ chain outer,
      (∀ inner, setting.Includes outer inner → inner.steps ∉ chain →
        motive (inner.steps :: chain) inner) →
      motive chain outer)
    (chain : Chain)
    (fragment : Fragment) :
    motive chain fragment := by
  generalize bound : setting.height chain fragment.text = height
  induction height using Nat.strongRecOn generalizing chain fragment with
  | _ height ih =>
      refine step chain fragment fun inner includes off => ?_
      obtain ⟨name, included, path, resolved, read, steps, -⟩ := includes
      have unknown : chain.holds path = false := by
        rwa [← Bool.not_eq_true, Chain.holds_iff, ← steps]
      have lower := height_lt included resolved unknown read
      rw [bound, ← steps] at lower
      exact ih _ lower _ _ rfl

/-- An entity of an expansion is one of a template that can be reached. -/
theorem exists_own_of_get?_whole
    (chain : Chain)
    (root : Fragment)
    (found : (setting.whole chain root).entities.get? key = some record) :
    ∃ fragment, ReflTransGen setting.Includes root fragment ∧
      (setting.own fragment).entities.get? key = some record := by
  induction chain, root using chain_induction setting with
  | step chain outer ih =>
      rcases get?_whole found with here | ⟨inner, includes, off, below⟩
      · exact ⟨outer, .refl, here⟩
      · obtain ⟨fragment, reached, present⟩ := ih inner includes off below
        exact ⟨fragment, .head includes reached, present⟩

/-! ## Ways off a chain -/

/-- A directive of the outer template leads to the inner one, which is not on the chain. -/
def IncludesOff (setting : Setting) (chain : Chain) (outer inner : Fragment) : Prop :=
  setting.Includes outer inner ∧ inner.steps ∉ chain

/-- Whatever a directive leads to at the place of the template is that template. -/
def Settled (setting : Setting) (fragment : Fragment) : Prop :=
  ∀ outer inner, setting.Includes outer inner → inner.steps = fragment.steps → inner = fragment

/-- On a way from a template the last visit to it can be made the first one. -/
theorem off_cons_of_off
    {root fragment : Fragment}
    (settled : setting.Settled root)
    (reached : ReflTransGen (setting.IncludesOff chain) root fragment) :
    ReflTransGen (setting.IncludesOff (root.steps :: chain)) root fragment := by
  induction reached with
  | refl => exact .refl
  | @tail outer inner _ last ih =>
      obtain ⟨includes, off⟩ := last
      by_cases again : inner.steps = root.steps
      · rw [settled outer inner includes again]
      · refine ih.tail ⟨includes, ?_⟩
        rw [List.mem_cons, not_or]
        exact ⟨again, off⟩

theorem contains_whole_of_off
    (settled : ∀ outer inner, setting.Includes outer inner → setting.Settled inner)
    (chain : Chain)
    (root : Fragment)
    {fragment : Fragment}
    (reached : ReflTransGen (setting.IncludesOff chain) root fragment)
    (present : (setting.own fragment).entities.contains key = true) :
    (setting.whole chain root).entities.contains key = true := by
  induction chain, root using chain_induction setting with
  | step chain outer ih =>
      cases reached.cases_head with
      | inl same => exact contains_whole_of_own chain (same ▸ present)
      | inr first =>
          obtain ⟨inner, ⟨includes, off⟩, rest⟩ := first
          have avoiding := off_cons_of_off (settled outer inner includes) rest
          exact contains_whole_of_includes includes off (ih inner includes off avoiding)

/--
The entities have the keys of all templates that can be reached from a root, and each of them is
what a call site of these templates amounts to.
-/
structure Covers (setting : Setting) (root : Fragment) (entities : Entity.Map) : Prop where
  keys : ∀ key, entities.contains key = true ↔
    ∃ fragment, ReflTransGen setting.Includes root fragment ∧
      (setting.own fragment).entities.contains key = true
  origins : ∀ entity ∈ entities.entries,
    ∃ fragment, ReflTransGen setting.Includes root fragment ∧
      ∃ occurrence ∈ CallSite.scan setting.function fragment.text,
        Harvest.ComesFrom (some fragment.space) entity occurrence.site

/-- An expansion whose chain is the root alone covers all that can be reached. -/
theorem covers_of_settled
    (settled : ∀ outer inner, setting.Includes outer inner → setting.Settled inner)
    {root : Fragment}
    (rootSettled : setting.Settled root) :
    setting.Covers root (setting.whole [root.steps] root).entities := by
  refine ⟨fun key => ⟨fun present => ?_, ?_⟩, fun entity member => ?_⟩
  · obtain ⟨record, found⟩ := Option.isSome_iff_exists.mp present
    obtain ⟨fragment, reached, own⟩ := exists_own_of_get?_whole _ _ found
    exact ⟨fragment, reached, Option.isSome_iff_exists.mpr ⟨record, own⟩⟩
  · rintro ⟨fragment, reached, present⟩
    have free : ReflTransGen (setting.IncludesOff []) root fragment :=
      ReflTransGen.mono (fun _ _ includes => ⟨includes, List.not_mem_nil⟩) _ _ reached
    exact contains_whole_of_off settled _ _ (off_cons_of_off rootSettled free) present
  · obtain ⟨fragment, reached, own⟩ :=
      exists_own_of_get?_whole _ _ (Dictionary.get?_eq_some_iff.mpr member)
    exact ⟨fragment, reached, Harvest.mem_ofText (Dictionary.get?_eq_some_iff.mp own)⟩

/-! ## Templates of modules -/

/-- The file that a directive leads to is named after it. -/
def NamesFiles (setting : Setting) : Prop :=
  ∀ text, ∀ name ∈ names text, ∀ path,
    setting.resolve name = some path → path.textName? = some (setting.space name)

theorem settled_of_textName?
    (named : setting.NamesFiles)
    {path : Path}
    {space text : Text}
    (rootNamed : path.textName?.getD [] = space)
    (rootRead : ∀ other inner, other.components = path.components →
      setting.disk.readLossy setting.access other = .ok inner → inner = text) :
    setting.Settled ⟨path.components, space, text⟩ := by
  rintro outer ⟨steps, innerSpace, innerText⟩ ⟨name, included, other, resolved, read, rfl, rfl⟩ same
  have sameText := rootRead other innerText same read
  have sameName : path.textName? = some (setting.space name) := by
    rw [Path.textName?, ← Path.fileName?_eq_of_components same]
    exact named _ name included other resolved
  rw [sameName, Option.getD_some] at rootNamed
  rw [Fragment.mk.injEq]
  exact ⟨same, rootNamed, sameText⟩

theorem settled_of_includes
    (named : setting.NamesFiles)
    (includes : setting.Includes outer inner) :
    setting.Settled inner := by
  obtain ⟨name, included, path, resolved, read, steps, space⟩ := includes
  obtain ⟨innerSteps, innerSpace, text⟩ := inner
  subst steps space
  exact settled_of_textName? named (by rw [named _ name included path resolved, Option.getD_some])
    fun _ _ same readOther => Disk.text_eq_of_readLossy same readOther read

end Setting

/--
The harvest of a template covers it and everything it includes, whatever includes what.  The
template has its file name for a namespace, unless that is no text, and what can be read where it
lies is its text.
-/
theorem harvestTemplate_covers
    {collector : Collector}
    (modular : collector.resolver = find? collector.settings)
    (extensionPlain : '/' ∉ collector.settings.templateExtension)
    (disk : Disk)
    {path : Path}
    {space text : Text}
    (named : path.textName?.getD [] = space)
    (stands : ∀ other inner, other.components = path.components →
      disk.readLossy collector.access other = .ok inner → inner = text) :
    (collector.expansion disk).Covers ⟨path.components, space, text⟩
      (collector.harvestTemplate disk (some path) space text).entities := by
  have filesNamed : (collector.expansion disk).NamesFiles := by
    intro text name included path resolved
    have found : collector.resolver disk collector.access name = some path := resolved
    rw [modular] at found
    exact textName?_of_find? extensionPlain included found
  exact Setting.covers_of_settled (fun _ _ => Setting.settled_of_includes filesNamed)
    (Setting.settled_of_textName? filesNamed named stands)

/-- A menu that includes itself and a page, which includes the menu and is the root. -/
theorem harvestTemplate_covers_cycle :
    let menu := "<% include Page %><% include Menu %><% _t('K', 'Menu') %>".toList
    let page := "<% include Menu %><% _t('K', 'Page') %>".toList
    let site : Location := [Text.encode "site".toList]
    let templates : Location := site ++ [Text.encode "templates".toList]
    let folder : Location := templates ++ [Text.encode "Includes".toList]
    let disk := ((((Disk.blank.graft [] "site".toList .folder).graft
      site "templates".toList .folder).graft templates "Includes".toList .folder).graft
        folder "Menu.ss".toList (.file (Text.encode menu))).graft
          folder "Page.ss".toList (.file (Text.encode page))
    let collector : Collector := { settings := {}, ignored := [] }
    let path := Path.ofText ".//site/templates/./Includes/Page.ss".toList
    (collector.expansion disk).Covers ⟨path.components, "Page.ss".toList, page⟩
      (collector.harvestTemplate disk (some path) "Page.ss".toList page).entities := by
  intro menu page site templates folder disk collector path
  have read : disk.readLossy collector.access path = .ok page := by decide +kernel
  exact harvestTemplate_covers rfl (by decide +kernel) disk (by decide +kernel)
    fun _ _ same readOther => Disk.text_eq_of_readLossy same readOther read

end Include
end Phrasebook
