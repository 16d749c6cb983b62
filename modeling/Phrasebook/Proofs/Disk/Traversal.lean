import Phrasebook.Proofs.Disk.Walk
import Phrasebook.Proofs.Path.Relative
import Phrasebook.Proofs.Sorting
import Phrasebook.Proofs.Text.Bytes

/-!
# Traversals

The operating system lists the names in a folder in any order.  A traversal sorts them by their
bytes, yields a folder before what is in it and everything in it before the next name, and does not
go into what is hidden or cannot be listed.  Whatever the listing is, it meets what a walk meets.
So a walk has every visible file below its root that can be reached by listing folders, once and in
the order of the bytes of the names.
-/

namespace Phrasebook
namespace Disk

open Text

/-- The names in each folder, in the order in which they happen to be listed. -/
structure Listing (disk : Disk) where
  /-- The names in a folder. -/
  names : Location → List Bytes
  /-- Nothing is left out, and nothing is listed twice. -/
  complete : ∀ folder, (names folder).Perm (disk.namesIn folder)

/-- A name does not come behind another one. -/
def inOrder (first second : Bytes) : Bool :=
  !decide (second < first)

/-- The ways from a folder to the entries below it that a traversal yields. -/
def yieldsBelow
    (disk : Disk)
    (listing : Listing disk)
    (access : Access)
    (path : Path)
    (folder : Location) :
    List Location :=
  if refusal? access path folder = none then
    ((listing.names folder).mergeSort inOrder).flatMap fun name =>
      if Path.isHidden name then
        []
      else
        match _found : disk.node? (folder ++ [name]) with
        | none => []
        | some (.file _) => [[name]]
        | some .folder =>
            let inside := disk.yieldsBelow listing access (path.join name) (folder ++ [name])
            [name] :: inside.map (name :: ·)
  else
    []
termination_by disk.depth - folder.length
decreasing_by
  have bounded := length_le_depth (by assumption)
  simp only [List.length_append, List.length_singleton] at bounded ⊢
  omega

/-- The files and the closed folders among what a traversal meets, which begins with its root. -/
def traverse
    (disk : Disk)
    (listing : Listing disk)
    (access : Access)
    (root : Path) :
    Except Error Walk := do
  permit (access.mayRead root) root
  match disk.find root with
  | .ok (location, .folder) =>
      let entries := [] :: disk.yieldsBelow listing access root location
      .ok
        { files :=
            (entries.filter fun names => disk.isFileAt (location ++ names)).map fun names =>
              names.foldl Path.join root
          closed :=
            (entries.filterMap (disk.closedAt? access root location)).map fun (names, cause) =>
              (names.foldl Path.join root, cause) }
  | _ => .error (.notAFolder root)

variable
  {disk : Disk}
  {folder : Location}

/-! ## Sorted names -/

theorem inOrder_iff {first second : Bytes} :
    inOrder first second = true ↔ first < second ∨ first = second := by
  rw [inOrder, Bool.not_eq_true', decide_eq_false_iff_not]
  constructor
  · intro notBehind
    rcases Std.lt_trichotomy first second with before | same | behind
    · exact .inl before
    · exact .inr same
    · exact absurd behind notBehind
  · rintro (before | rfl)
    · exact List.lt_asymm before
    · exact List.lt_irrefl first

/-- Sorted names are those of the folder in their order, however they are listed. -/
theorem mergeSort_names (listing : Listing disk) (folder : Location) :
    (listing.names folder).mergeSort inOrder = disk.namesIn folder :=
  Sorting.mergeSort_eq_of_increasing (pairwise_namesIn disk folder) (listing.complete folder)
    List.lt_asymm List.lt_trans (fun first second => Std.lt_trichotomy first second) inOrder_iff

/-! ## Entries -/

/-- A traversal yields what a walk meets. -/
theorem yieldsBelow_eq_entriesBelow
    (listing : Listing disk)
    (access : Access)
    (path : Path)
    (folder : Location) :
    disk.yieldsBelow listing access path folder = disk.entriesBelow access path folder := by
  induction path, folder using entriesBelow.induct disk access with
  | case1 path folder listable ih =>
      rw [yieldsBelow, entriesBelow_eq, if_pos listable, if_pos listable, mergeSort_names]
      refine congrArg (List.flatMap · _) (funext fun name => ?_)
      rw [entriesBehind]
      split
      · rfl
      · split
        next missing => simp [missing]
        next content found => simp [found]
        next found => rw [if_pos found, ih name found]
  | case2 path folder closed => rw [yieldsBelow, entriesBelow_eq, if_neg closed, if_neg closed]

/-- A traversal meets what a walk meets, whatever order the names are listed in. -/
theorem traverse_eq_walk (listing : Listing disk) (access : Access) (root : Path) :
    disk.traverse listing access root = disk.walk access root := by
  unfold traverse walk
  refine bind_congr fun _ => ?_
  cases reached : disk.find root with
  | error cause => rfl
  | ok place =>
      obtain ⟨location, node⟩ := place
      cases node with
      | file content => rfl
      | folder =>
          have noFile : disk.isFileAt (location ++ []) = false := by
            rw [List.append_nil, isFileAt, (find_eq_ok reached).2]
          simp only [yieldsBelow_eq_entriesBelow, List.filter_cons, noFile, Bool.false_eq_true,
            if_false]
          rfl

theorem refusal?_eq_none_iff {access : Access} {path : Path} :
    refusal? access path folder = none ↔
      accept path = .ok () ∧ access.mayList folder = true := by
  unfold refusal?
  cases accept path <;> simp

/--
The visible files below a folder that a walk from a path to it can reach, by the ways that lead to
them, in canonical order.
-/
structure VisibleFiles
    (disk : Disk)
    (access : Access)
    (root : Path)
    (folder : Location)
    (ways : List Location) :
    Prop where
  /--
  A way leads to a file, past names of which none is a text that begins with a dot, and past folders
  that may be listed and to which the paths from the root can be followed.  No such way is missing.
  -/
  complete : ∀ names, names ∈ ways ↔ names ≠ [] ∧
    (∀ name ∈ names, ∀ rest, name ≠ encode ('.' :: rest)) ∧
      (∀ front, front <+: names → front ≠ names →
        accept (front.foldl Path.join root) = .ok () ∧ access.mayList (folder ++ front) = true) ∧
          ∃ content, disk.node? (folder ++ names) = some (.file content)
  /-- The ways are in increasing order of the bytes of their names, name by name. -/
  ordered : ways.Pairwise (· < ·)

theorem visibleFiles_filesBelow
    (disk : Disk)
    (access : Access)
    (root : Path)
    (folder : Location) :
    disk.VisibleFiles access root folder (disk.filesBelow access root folder) where
  complete := fun names => by
    have visible_iff (name : Bytes) :
        Path.isHidden name = false ↔ ∀ rest, name ≠ encode ('.' :: rest) := by
      rw [← Bool.not_eq_true, Path.isHidden_eq_true_iff, not_exists]
    simp only [mem_filesBelow, visible_iff, IsOpen, refusal?_eq_none_iff]
  ordered := pairwise_filesBelow disk access root folder

/-- Different ways make up different paths. -/
theorem nodup_map_foldl_join
    {ways : List Location}
    (root : Path)
    (plain : ∀ names ∈ ways, ∀ name ∈ names, Path.IsPlainName name)
    (distinct : ways.Nodup) :
    (ways.map fun names => names.foldl Path.join root).Nodup := by
  refine distinct.map_on fun first member second other same => ?_
  have components := congrArg Path.components same
  rw [Path.components_foldl_join root (plain first member),
    Path.components_foldl_join root (plain second other), List.append_cancel_left_eq] at components
  exact List.map_injective_iff.mpr (fun _ _ => Component.name.inj) components

end Disk
end Phrasebook
