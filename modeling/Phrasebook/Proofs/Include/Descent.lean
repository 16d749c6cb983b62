import Mathlib.Data.Finset.Card
import Phrasebook.Include.Expansion

/-!
# How far an expansion goes down

An expansion can be made with one chain for all of its calls: the path of an included template is
put on the chain before its call and taken off behind it.  Such a walk goes down to a given depth
at most and gives up below.  If the names of includes lead to finitely many paths, no walk is
deeper than there are such paths.  For a path is put on the chain only while it is not there, so
fewer of them are left with each call.
-/

namespace Phrasebook
namespace Include

/-! ## Walks -/

/-- A call for an included template. -/
structure Call where
  /-- The path of the template. -/
  path : Path
  /-- The chain when the call begins. -/
  before : Chain
  /-- The chain when the call has ended. -/
  after : Chain
  deriving DecidableEq

/-- The chain of a walk, and the calls that have ended so far. -/
structure Trail where
  /-- The chain. -/
  chain : Chain
  /-- The calls, in the order in which they ended. -/
  calls : List Call := []
  deriving DecidableEq

/-- The trail when a call for the template at a path begins. -/
def Trail.push (trail : Trail) (path : Path) : Trail :=
  { trail with chain := path.components :: trail.chain }

/-- The trail behind a call for the template at a path, from the trail at its end. -/
def Trail.pop (trail : Trail) (path : Path) (before : Chain) : Trail where
  chain := trail.chain.tail
  calls := trail.calls ++ [⟨path, before, trail.chain⟩]

namespace Setting

/-- A harvest and a trail behind one more directive, with a call for what it leads to. -/
def visit
    (setting : Setting)
    (call : Text → Text → Trail → Option (Harvest × Trail))
    (state : Harvest × Trail)
    (name : Text) :
    Option (Harvest × Trail) :=
  match setting.resolve name with
  | none => some (state.1.warn (.unresolved name), state.2)
  | some path =>
      if state.2.chain.holds path then
        some (state.1.warn (.cycle name path), state.2)
      else
        match setting.disk.readLossy setting.access path with
        | .error cause => some (state.1.warn (.unreadable path cause), state.2)
        | .ok inner =>
            let begun := state.2.push path
            (call (setting.space name) inner begun).map fun ended =>
              (state.1.absorb ended.1, ended.2.pop path begun.chain)

/-- The harvest of a template and the trail behind it, unless its includes go down too far. -/
def walk (setting : Setting) : Nat → Text → Text → Trail → Option (Harvest × Trail)
  | 0, _, _, _ => none
  | depth + 1, space, text, trail =>
      ((names text).foldlM (setting.visit (setting.walk depth)) ({}, trail)).map fun ended =>
        (ended.1.absorb (Harvest.ofText setting.function (some space) text), ended.2)

end Setting

/-! ## Chains that grow -/

variable {targets : Finset (List Component)} {start chain : Chain} {steps : List Component}

/-- A chain has grown out of another one by targets that were not on it when they came. -/
inductive Grown (targets : Finset (List Component)) (start : Chain) : Chain → Prop
  | start : Grown targets start start
  | push {chain : Chain} {steps : List Component} :
      Grown targets start chain →
      steps ∈ targets →
      steps ∉ chain →
      Grown targets start (steps :: chain)

theorem Grown.exists_fresh (grown : Grown targets start chain) :
    ∃ fresh, chain = fresh ++ start ∧ fresh.Nodup ∧ fresh.Disjoint start ∧
      ∀ steps ∈ fresh, steps ∈ targets := by
  induction grown with
  | start => exact ⟨[], rfl, List.nodup_nil, List.disjoint_nil_left start, by simp⟩
  | @push chain steps _ isTarget isFresh ih =>
      obtain ⟨fresh, rfl, distinct, apart, inTargets⟩ := ih
      rw [List.mem_append, not_or] at isFresh
      refine ⟨steps :: fresh, rfl, ?_, ?_, ?_⟩
      · exact List.nodup_cons.mpr ⟨isFresh.1, distinct⟩
      · exact List.disjoint_cons_left.mpr ⟨isFresh.2, apart⟩
      · exact List.forall_mem_cons.mpr ⟨isTarget, inTargets⟩

/-- How many targets are not on a chain. -/
def unused (targets : Finset (List Component)) (chain : Chain) : Nat :=
  (targets.filter (· ∉ chain)).card

theorem unused_cons_lt
    (isTarget : steps ∈ targets)
    (isFresh : steps ∉ chain) :
    unused targets (steps :: chain) < unused targets chain := by
  refine Finset.card_lt_card (Finset.ssubset_iff_of_subset ?_ |>.mpr ⟨steps, ?_, ?_⟩)
  · intro other
    simp only [Finset.mem_filter, List.mem_cons, not_or]
    exact fun kept => ⟨kept.1, kept.2.2⟩
  · exact Finset.mem_filter.mpr ⟨isTarget, isFresh⟩
  · simp

/-! ## Calls -/

/-- The call puts a new path on a chain that has grown, and leaves the chain as it was then. -/
def Call.IsBalanced
    (targets : Finset (List Component))
    (start : Chain)
    (call : Call) : Prop :=
  ∃ outer, Grown targets start outer ∧
    call.path.components ∈ targets ∧
    call.path.components ∉ outer ∧
    call.before = call.path.components :: outer ∧
    call.after = call.before

theorem Call.IsBalanced.exists_fresh
    {call : Call}
    (balanced : call.IsBalanced targets start)
    (startDistinct : start.Nodup) :
    call.after = call.before ∧
      ∃ fresh, call.before = call.path.components :: (fresh ++ start) ∧
        call.before.Nodup ∧ fresh.length < targets.card := by
  obtain ⟨outer, grown, isTarget, isFresh, before, after⟩ := balanced
  obtain ⟨fresh, rfl, distinct, apart, inTargets⟩ := grown.exists_fresh
  have allDistinct : (call.path.components :: fresh).Nodup :=
    List.nodup_cons.mpr ⟨fun twice => isFresh (List.mem_append_left start twice), distinct⟩
  have most : (call.path.components :: fresh).length ≤ targets.card := by
    rw [← List.toFinset_card_of_nodup allDistinct]
    refine Finset.card_le_card fun steps member => ?_
    exact List.forall_mem_cons.mpr ⟨isTarget, inTargets⟩ steps (List.mem_toFinset.mp member)
  refine ⟨after, fresh, before, ?_, most⟩
  rw [before, List.nodup_cons, List.nodup_append']
  exact ⟨isFresh, distinct, startDistinct, apart⟩

/-- A walk ends with this harvest and with its old chain, and all its calls are balanced. -/
def Ends
    (targets : Finset (List Component))
    (start : Chain)
    (trail : Trail)
    (result : Option (Harvest × Trail))
    (harvest : Harvest) : Prop :=
  ∃ later, result = some (harvest, { trail with calls := trail.calls ++ later }) ∧
    ∀ call ∈ later, call.IsBalanced targets start

namespace Setting

/-- The calls end with the expansion wherever fewer targets than the depth are left. -/
def Serves
    (setting : Setting)
    (targets : Finset (List Component))
    (start : Chain)
    (depth : Nat)
    (call : Text → Text → Trail → Option (Harvest × Trail)) : Prop :=
  ∀ (space text : Text) (trail : Trail),
    Grown targets start trail.chain →
    unused targets trail.chain < depth →
    Ends targets start trail (call space text trail) (setting.expand trail.chain space text)

variable
  {setting : Setting}
  {trail : Trail}
  {depth : Nat}
  {call : Text → Text → Trail → Option (Harvest × Trail)}

theorem visit_ends
    (grown : Grown targets start trail.chain)
    (name : Text)
    (inTargets : ∀ path, setting.resolve name = some path → path.components ∈ targets)
    (serves : setting.Serves targets start depth call)
    (deep : unused targets trail.chain < depth + 1)
    (harvest : Harvest) :
    Ends targets start trail (setting.visit call (harvest, trail) name)
      (setting.follow trail.chain harvest name) := by
  have passedOver (warning : Warning) :
      Ends targets start trail (some (harvest.warn warning, trail)) (harvest.warn warning) :=
    ⟨[], by simp, by simp⟩
  unfold visit follow
  cases resolved : setting.resolve name with
  | none => exact passedOver _
  | some path =>
      by_cases known : trail.chain.holds path = true
      · simpa only [if_pos known] using passedOver _
      · simp only [if_neg known]
        cases setting.disk.readLossy setting.access path with
        | error cause => exact passedOver _
        | ok inner =>
            have isTarget := inTargets path resolved
            have isFresh : path.components ∉ trail.chain := fun member =>
              known (Chain.holds_iff.mpr member)
            have fewer : unused targets (trail.push path).chain < depth :=
              Nat.lt_of_lt_of_le (unused_cons_lt isTarget isFresh) (Nat.le_of_lt_succ deep)
            obtain ⟨later, called, balanced⟩ :=
              serves (setting.space name) inner _ (grown.push isTarget isFresh) fewer
            refine ⟨later ++ [⟨path, (trail.push path).chain, (trail.push path).chain⟩], ?_, ?_⟩
            · simp only [called, Option.map_some]
              simp [Trail.push, Trail.pop]
            · rw [List.forall_mem_append, List.forall_mem_singleton]
              exact ⟨balanced, trail.chain, grown, isTarget, isFresh, rfl, rfl⟩

theorem foldlM_visit_ends
    (grown : Grown targets start trail.chain)
    (serves : setting.Serves targets start depth call)
    (deep : unused targets trail.chain < depth + 1)
    (names : List Text)
    (inTargets : ∀ name ∈ names, ∀ path,
      setting.resolve name = some path → path.components ∈ targets)
    (harvest : Harvest) :
    Ends targets start trail (names.foldlM (setting.visit call) (harvest, trail))
      (names.foldl (setting.follow trail.chain) harvest) := by
  induction names generalizing trail harvest with
  | nil => exact ⟨[], by simp, by simp⟩
  | cons name names ih =>
      rw [List.forall_mem_cons] at inTargets
      obtain ⟨first, visited, firstBalanced⟩ :=
        visit_ends grown name inTargets.1 serves deep harvest
      have grownOn : Grown targets start { trail with calls := trail.calls ++ first }.chain :=
        grown
      obtain ⟨later, followed, laterBalanced⟩ :=
        ih grownOn deep inTargets.2 (setting.follow trail.chain harvest name)
      refine ⟨first ++ later, ?_, List.forall_mem_append.mpr ⟨firstBalanced, laterBalanced⟩⟩
      rw [List.foldlM_cons, visited]
      simpa using followed

/-- A walk that is deeper than the number of targets ends with the expansion. -/
theorem walk_serves
    (inTargets : ∀ text, ∀ name ∈ names text, ∀ path,
      setting.resolve name = some path → path.components ∈ targets)
    (start : Chain)
    (depth : Nat) :
    setting.Serves targets start depth (setting.walk depth) := by
  intro space text trail grown deep
  induction depth generalizing space text trail with
  | zero => exact absurd deep (Nat.not_lt_zero _)
  | succ depth ih =>
      obtain ⟨later, followed, balanced⟩ :=
        foldlM_visit_ends grown ih deep (names text) (inTargets text) {}
      exact ⟨later, by rw [walk, followed, expand_eq]; rfl, balanced⟩

/-- A walk that may go down by more steps than there are paths ends with the harvest. -/
theorem walk_eq_harvest
    {setting : Setting}
    {targets : Finset Path}
    (finite : ∀ text, ∀ name ∈ names text, ∀ path,
      setting.resolve name = some path → path ∈ targets)
    (path : Option Path)
    (space text : Text)
    {depth : Nat}
    (deep : (targets.image Path.components).card < depth) :
    let start := (path.map Path.components).toList
    ∃ calls,
      setting.walk depth space text ⟨start, []⟩ =
        some (setting.harvest path space text, ⟨start, calls⟩) ∧
      ∀ call ∈ calls, call.after = call.before ∧
        ∃ fresh, call.before = call.path.components :: (fresh ++ start) ∧
          call.before.Nodup ∧ fresh.length < (targets.image Path.components).card := by
  intro start
  have inTargets : ∀ text, ∀ name ∈ names text, ∀ path,
      setting.resolve name = some path → path.components ∈ targets.image Path.components :=
    fun text name included path resolved =>
      Finset.mem_image_of_mem _ (finite text name included path resolved)
  have left : unused (targets.image Path.components) start < depth :=
    Nat.lt_of_le_of_lt (Finset.card_filter_le _ _) deep
  obtain ⟨calls, walked, balanced⟩ :=
    walk_serves inTargets start depth space text ⟨start, []⟩ .start left
  have startDistinct : start.Nodup := by
    cases path with
    | none => exact List.nodup_nil
    | some path => exact List.nodup_singleton _
  exact ⟨calls, walked, fun call member => (balanced call member).exists_fresh startDistinct⟩

/-- Two templates that include each other, by paths of which one has a step that means nothing. -/
theorem walk_eq_harvest_cycle :
    let table : List (Text × Path) :=
      [("Menu".toList, ⟨"Menu.ss".toList⟩), ("Page".toList, ⟨"./Page.ss".toList⟩),
        ("Top".toList, ⟨".//Page.ss".toList⟩)]
    let disk := (Disk.blank.graft [] "Menu.ss".toList
      (.file (Text.encode "<% include Page %><% include Top %>".toList))).graft
        [] "Page.ss".toList (.file (Text.encode "<% include Menu %>".toList))
    let setting : Setting :=
      { function := "_t".toList
        extension := "ss".toList
        resolve := ofTable table disk .full
        disk := disk
        access := .full }
    let start := [Path.components ⟨"./Page.ss".toList⟩]
    ∃ calls,
      setting.walk 3 "Page.ss".toList "<% include Menu %>".toList ⟨start, []⟩ =
        some (setting.harvest (some ⟨"./Page.ss".toList⟩) "Page.ss".toList
          "<% include Menu %>".toList, ⟨start, calls⟩) ∧
      ∀ call ∈ calls, call.after = call.before ∧
        ∃ fresh, call.before = call.path.components :: (fresh ++ start) ∧
          call.before.Nodup ∧ fresh.length < 2 := by
  intro table disk setting start
  have finite : ∀ text, ∀ name ∈ names text, ∀ path,
      setting.resolve name = some path → path ∈ (table.map Prod.snd).toFinset :=
    fun _ _ _ _ resolved =>
      List.mem_toFinset.mpr (List.mem_map_of_mem (Dictionary.mem_of_lookup resolved))
  have two : ((table.map Prod.snd).toFinset.image Path.components).card = 2 := by
    decide +kernel
  have ended := walk_eq_harvest finite (some ⟨"./Page.ss".toList⟩) "Page.ss".toList
    "<% include Menu %>".toList (two ▸ Nat.lt_succ_self 2)
  rwa [two] at ended

end Setting
end Include
end Phrasebook
