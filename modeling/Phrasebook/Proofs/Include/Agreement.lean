import Phrasebook.Proofs.Disk.Listing
import Phrasebook.Proofs.Include.Coverage

/-!
# Expansions that see the same

An expansion sees of its surroundings only which path is behind the name of a directive and which
text is at that path.  Where these are the same, its harvest is the same.  For the lookup in
modules they are the same when the folder of the modules lists the same visible names and the paths
that an included template may have are alike.
-/

namespace Phrasebook
namespace Include
namespace Setting

/-- Directives lead to the same paths and to the same texts. -/
structure Agrees (first second : Setting) : Prop where
  /-- The same function is looked for. -/
  function : second.function = first.function
  /-- Templates have the same suffix. -/
  extension : second.extension = first.extension
  /-- The names in directives have the same paths behind them. -/
  resolve : ∀ text, ∀ name ∈ names text, second.resolve name = first.resolve name
  /-- What is read at these paths is the same. -/
  read : ∀ text, ∀ name ∈ names text, ∀ path, first.resolve name = some path →
    second.disk.readLossy second.access path = first.disk.readLossy first.access path

variable {first second : Setting}

/-- Directives are followed alike if the templates behind them are expanded alike. -/
theorem follow_congr
    (agrees : first.Agrees second)
    {chain : Chain}
    {outer : Fragment}
    {name : Text}
    (included : name ∈ names outer.text)
    (below : ∀ inner, first.Includes outer inner → inner.steps ∉ chain →
      second.whole (inner.steps :: chain) inner = first.whole (inner.steps :: chain) inner)
    (harvest : Harvest) :
    second.follow chain harvest name = first.follow chain harvest name := by
  unfold follow
  rw [agrees.resolve outer.text name included]
  cases resolved : first.resolve name with
  | none => rfl
  | some path =>
      by_cases known : chain.holds path = true
      · simp only [if_pos known]
      · simp only [if_neg known]
        rw [agrees.read outer.text name included path resolved]
        cases read : first.disk.readLossy first.access path with
        | error cause => rfl
        | ok text =>
            have same := below ⟨path.components, first.space name, text⟩
              ⟨name, included, path, resolved, read, rfl, rfl⟩
              fun member => known (Chain.holds_iff.mpr member)
            have space : second.space name = first.space name := by
              rw [Setting.space, Setting.space, agrees.extension]
            rw [space]
            exact congrArg harvest.absorb same

/-- Expansions that see the same have the same harvest. -/
theorem whole_congr
    (agrees : first.Agrees second)
    (chain : Chain)
    (fragment : Fragment) :
    second.whole chain fragment = first.whole chain fragment := by
  induction chain, fragment using chain_induction first with
  | step chain outer ih =>
      have own : second.own outer = first.own outer := by
        rw [Setting.own, Setting.own, agrees.function]
      rw [whole_eq, whole_eq, own]
      congr 1
      exact List.foldl_ext _ _ _ fun harvest _ included => follow_congr agrees included ih harvest

theorem harvest_congr
    (agrees : first.Agrees second)
    (path : Option Path)
    (space text : Text) :
    second.harvest path space text = first.harvest path space text :=
  whole_congr agrees _ ⟨[], space, text⟩

end Setting

/-- The lookup looks for included templates in the visible folders with plain names. -/
structure IsLookedInto (settings : Settings) (disk : Disk) (module : Text) : Prop where
  /-- The folder of the modules is there. -/
  base : disk.find settings.base = .ok (disk.target settings.base, .folder)
  /-- The name is plain. -/
  plain : Path.IsPlainName module
  /-- The name is not hidden. -/
  visible : Path.isHiddenName module = false

/-- The paths that the lookup tries are those in the folders it looks into. -/
theorem exists_of_mem_candidates
    {settings : Settings}
    {disk : Disk}
    {access : Access}
    {name : Text}
    {modules : List Path}
    (listed : disk.list access settings.base = .ok modules)
    {path : Path}
    (member : path ∈ (modules.filter isVisible).map (candidate settings name)) :
    ∃ module, IsLookedInto settings disk module ∧
      path = candidate settings name (settings.base.join module) := by
  obtain ⟨location, found, rfl⟩ := Disk.list_eq_ok listed
  obtain rfl : location = disk.target settings.base := (Disk.find_eq_ok found).1
  obtain ⟨folder, kept, rfl⟩ := List.mem_map.mp member
  obtain ⟨member, visible⟩ := List.mem_filter.mp kept
  obtain ⟨name, inside, rfl⟩ := List.mem_map.mp member
  have plain := Disk.isPlainName_of_isName (Disk.isName_of_mem_namesIn inside)
  rw [isVisible, Path.textName?_join _ plain] at visible
  split at visible
  next => cases visible
  next module decoded =>
    obtain rfl := Text.decode?_eq_some_iff.mp decoded
    exact ⟨module, ⟨found, plain, by simpa using visible⟩, rfl⟩

/-- What the lookup finds is a file in one of the folders it looks into. -/
theorem exists_of_find?
    {settings : Settings}
    {disk : Disk}
    {access : Access}
    {name : Text}
    {path : Path}
    (found : find? settings disk access name = some path) :
    ∃ module, IsLookedInto settings disk module ∧
      path = candidate settings name (settings.base.join module) ∧ disk.holdsFile path = true := by
  unfold find? at found
  split at found
  · simp at found
  next modules listed =>
    obtain ⟨module, looked, same⟩ :=
      exists_of_mem_candidates listed (List.mem_of_find?_eq_some found)
    exact ⟨module, looked, same, List.find?_some found⟩

/-- The lookup in modules depends on the visible folders around them and on the paths it tries. -/
theorem find?_congr
    {settings : Settings}
    {first second : Disk}
    {access : Access}
    {name : Text}
    (listed : (second.list access settings.base).map (List.filter isVisible) =
      (first.list access settings.base).map (List.filter isVisible))
    (held : ∀ module : Text, IsLookedInto settings first module →
      second.holdsFile (candidate settings name (settings.base.join module)) =
        first.holdsFile (candidate settings name (settings.base.join module))) :
    find? settings second access name = find? settings first access name := by
  unfold find?
  cases found : first.list access settings.base with
  | error cause =>
      cases foundSecond : second.list access settings.base with
      | error other => rfl
      | ok modules => simp [found, foundSecond, Except.map] at listed
  | ok modules =>
      cases foundSecond : second.list access settings.base with
      | error other => simp [found, foundSecond, Except.map] at listed
      | ok others =>
          simp only [found, foundSecond, Except.map, Except.ok.injEq] at listed
          simp only [listed]
          rw [← List.head?_filter, ← List.head?_filter]
          refine congrArg List.head? (List.filter_congr fun path member => ?_)
          obtain ⟨module, looked, rfl⟩ := exists_of_mem_candidates found member
          exact held module looked

end Include
end Phrasebook
