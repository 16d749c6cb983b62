import Phrasebook.Harvest
import Phrasebook.Include.Directive
import Phrasebook.Include.Lookup

/-!
# Expansion of includes

The harvest of a template is that of everything it includes, directive by directive, and then that
of its own call sites.  Bare keys of an included template get its file name as their namespace.

The chain holds the steps of the paths to the templates that are being expanded.  A directive that
leads back to the chain is passed over, so every include goes to a file that is not on it.  Only the
directives in files of the disk can be met on the way, and they lead to finitely many paths; the
number of those that are not on the chain falls with each include, however the templates refer to
each other.
-/

namespace Phrasebook
namespace Include

/-- The steps of the paths to the templates that are being expanded, the innermost first. -/
abbrev Chain : Type :=
  List (List Component)

/-- The path leads to a template of the chain. -/
def Chain.holds (chain : Chain) (path : Path) : Bool :=
  let steps := path.components
  chain.any fun other => steps = other

/-- A chain that is longer by a path leads to that path besides. -/
@[simp]
theorem Chain.holds_cons (steps : List Component) (chain : Chain) (path : Path) :
    Chain.holds (steps :: chain) path = (decide (path.components = steps) || chain.holds path) :=
  rfl

/-- A chain leads to a path when it holds the steps of the path. -/
theorem Chain.holds_iff
    {chain : Chain}
    {path : Path} :
    chain.holds path = true ↔ path.components ∈ chain := by
  simp [Chain.holds]

/-- What an expansion depends on besides the template itself. -/
structure Setting where
  /-- The name of the lookup function. -/
  function : Text
  /-- The suffix of templates. -/
  extension : Text
  /-- The path of the template behind a name. -/
  resolve : Text → Option Path
  /-- The disk that holds the templates. -/
  disk : Disk
  /-- The access to the disk. -/
  access : Access

namespace Setting

/-- The names in the directives of all files of the disk. -/
def pool (setting : Setting) : List Text :=
  setting.disk.contents.flatMap fun content => names (Text.decodeLossy content)

/-- The paths behind these names that are not on a chain. -/
def remaining (setting : Setting) (chain : Chain) : List Path :=
  (setting.pool.filterMap setting.resolve).filter fun path => !chain.holds path

/--
How many steps an expansion can still go down: a template that is not on the disk may have
directives that no file has, which allows for one step more.
-/
def height (setting : Setting) (chain : Chain) (text : Text) : Nat :=
  (setting.remaining chain).length + if ∀ name ∈ names text, name ∈ setting.pool then 0 else 1

/-- The namespace of bare keys in the template behind a name. -/
def space (setting : Setting) (name : Text) : Text :=
  name ++ '.' :: setting.extension

/-- A text that is read from the disk has its directives among those of all files. -/
theorem mem_pool
    {setting : Setting}
    {path : Path}
    {text : Text}
    (read : setting.disk.readLossy setting.access path = .ok text) :
    ∀ name ∈ names text, name ∈ setting.pool := by
  intro name member
  unfold Disk.readLossy Disk.readBytes at read
  cases permitted : Disk.permit (setting.access.mayRead path) path with
  | error cause => simp [permitted, bind, Except.bind, Except.map] at read
  | ok =>
      simp only [permitted, bind, Except.bind] at read
      split at read
      · simp [Except.map] at read
      · simp [Except.map] at read
      next location content found =>
        simp only [Except.map, Except.ok.injEq] at read
        refine List.mem_flatMap.mpr ⟨content, ?_, read ▸ member⟩
        simp only [Disk.find, bind, Except.bind] at found
        split at found
        · simp at found
        · split at found
          · simp at found
          · split at found
            · simp at found
            next node present =>
              simp only [Except.ok.injEq, Prod.mk.injEq] at found
              obtain ⟨-, rfl⟩ := found
              exact Disk.mem_contents present

/-- A longer chain leaves open what is not its new first path. -/
theorem remaining_cons
    (setting : Setting)
    (steps : List Component)
    (chain : Chain) :
    setting.remaining (steps :: chain) =
      (setting.remaining chain).filter fun target => !decide (target.components = steps) := by
  unfold remaining
  rw [List.filter_filter]
  refine List.filter_congr fun target _ => ?_
  rw [Chain.holds_cons, Bool.not_or]

/-- A longer chain leaves no more paths open. -/
theorem length_remaining_cons_le
    (setting : Setting)
    (steps : List Component)
    (chain : Chain) :
    (setting.remaining (steps :: chain)).length ≤ (setting.remaining chain).length := by
  rw [remaining_cons]
  exact List.length_filter_le _ _

/-- A chain that is longer by an open path leaves fewer paths open. -/
theorem length_remaining_cons_lt
    {setting : Setting}
    {path : Path}
    {chain : Chain}
    (isFresh : path ∈ setting.remaining chain) :
    (setting.remaining (path.components :: chain)).length < (setting.remaining chain).length := by
  rw [remaining_cons]
  exact List.length_filter_lt_length_iff_exists.mpr ⟨path, isFresh, by simp⟩

/-- Following a directive to a file that is not on the chain lowers the height. -/
theorem height_lt
    {setting : Setting}
    {chain : Chain}
    {outer inner : Text}
    {name : Text}
    {path : Path}
    (included : name ∈ names outer)
    (resolved : setting.resolve name = some path)
    (fresh : chain.holds path = false)
    (read : setting.disk.readLossy setting.access path = .ok inner) :
    setting.height (path.components :: chain) inner < setting.height chain outer := by
  have innerPool := mem_pool read
  unfold height
  rw [if_pos innerPool]
  split
  next outerPool =>
    have target : path ∈ setting.remaining chain :=
      List.mem_filter.mpr
        ⟨List.mem_filterMap.mpr ⟨name, outerPool name included, resolved⟩, by simp [fresh]⟩
    have := length_remaining_cons_lt target
    omega
  next =>
    have := length_remaining_cons_le setting path.components chain
    omega

/-- The harvest of a template, with what it includes, below a chain of templates. -/
def expand
    (setting : Setting)
    (chain : Chain)
    (space : Text)
    (text : Text) :
    Harvest :=
  let included : Harvest :=
    (names text).attach.foldl
      (fun harvest name =>
        match _resolved : setting.resolve name.1 with
        | none => harvest.warn (.unresolved name.1)
        | some path =>
            if _fresh : chain.holds path then
              harvest.warn (.cycle name.1 path)
            else
              match _read : setting.disk.readLossy setting.access path with
              | .error cause => harvest.warn (.unreadable path cause)
              | .ok inner =>
                  harvest.absorb
                    (setting.expand (path.components :: chain) (setting.space name.1) inner))
      ({} : Harvest)
  included.absorb (Harvest.ofText setting.function (some space) text)
termination_by setting.height chain text
decreasing_by
  exact height_lt name.2 _resolved (by simpa using _fresh) _read

/-- A harvest with what one more directive leads to. -/
def follow
    (setting : Setting)
    (chain : Chain)
    (harvest : Harvest)
    (name : Text) :
    Harvest :=
  match setting.resolve name with
  | none => harvest.warn (.unresolved name)
  | some path =>
      if chain.holds path then
        harvest.warn (.cycle name path)
      else
        match setting.disk.readLossy setting.access path with
        | .error cause => harvest.warn (.unreadable path cause)
        | .ok inner =>
            harvest.absorb (setting.expand (path.components :: chain) (setting.space name) inner)

/-- An expansion follows the directives one by one and ends with the call sites. -/
theorem expand_eq
    (setting : Setting)
    (chain : Chain)
    (space : Text)
    (text : Text) :
    setting.expand chain space text =
      ((names text).foldl (setting.follow chain) {}).absorb
        (Harvest.ofText setting.function (some space) text) := by
  rw [expand]
  refine congrArg (fun included : Harvest => included.absorb _) ?_
  rw [← List.foldl_attach (l := names text)]
  congr 1
  funext harvest name
  unfold follow
  split <;> simp_all
  split <;> simp_all
  split <;> simp_all

/-- The harvest of a template and everything it includes; its own path begins the chain. -/
def harvest
    (setting : Setting)
    (path : Option Path)
    (space : Text)
    (text : Text) :
    Harvest :=
  setting.expand (path.map Path.components).toList space text

end Setting
end Include
end Phrasebook
