import Phrasebook.Dictionary
import Phrasebook.Path

/-!
# Disks

A disk is a finite tree of folders and files.  Every node has a location, which is the list of
names that leads to it from the root, and everything but the root lies in a folder.  A name is a
sequence of bytes, which need not encode a text.  Names are not empty, hold no slashes, are told
apart from the dots that have a meaning in paths, and have a greatest length.  One location is the
working folder, at which relative paths start.

There are no links and no special files: a location is the only way to its node.

The changes that keep a disk a tree are putting a file into a folder, making a folder in a folder,
and removing a node with everything below it.
-/

namespace Phrasebook

/-- The names on the way from the root. -/
abbrev Location : Type :=
  List Bytes

/-- Locations are ordered in a line, by the bytes of their names. -/
instance : KeyOrder Location where
  asymm := fun less => Std.Asymm.asymm _ _ less
  trans := fun less more => Std.lt_trans less more
  trichotomy := fun first second => Std.lt_trichotomy first second

/-- What a location holds. -/
inductive Node where
  /-- A file with its content. -/
  | file (content : Bytes)
  /-- A folder. -/
  | folder
  deriving DecidableEq

/-- The greatest number of bytes in a name. -/
def nameLimit : Nat :=
  255

/-- The bytes may be the name of a file or folder. -/
def isName (name : Bytes) : Bool :=
  name ≠ [] && name ≠ [Path.dot] && name ≠ [Path.dot, Path.dot] &&
    name.all (fun byte => byte ≠ Path.slash && byte ≠ 0) && name.length ≤ nameLimit

/-- A finite tree of folders and files. -/
structure Disk where
  /-- The nodes by location. -/
  nodes : Dictionary Location Node
  /-- The location of the working folder. -/
  here : Location
  /-- The root is a folder. -/
  rooted : nodes.get? [] = some .folder
  /-- Everything else lies in a folder. -/
  closed : ∀ (parent : Location) (name : Bytes),
    (nodes.get? (parent ++ [name])).isSome → nodes.get? parent = some .folder
  /-- Every location is made of names. -/
  named : ∀ location : Location, (nodes.get? location).isSome → location.all isName = true

namespace Disk

/-- What a location holds, if anything. -/
def node? (disk : Disk) (location : Location) : Option Node :=
  disk.nodes.get? location

/-- The disk that holds nothing but its root. -/
def blank : Disk where
  nodes := Dictionary.empty.insert [] .folder
  here := []
  rooted := by simp
  closed := by
    intro parent name present
    simp at present
  named := by
    intro location present
    cases location with
    | nil => rfl
    | cons name rest => simp at present

/-- The location of a node in a folder determines the folder. -/
theorem append_singleton_inj
    {first second : Location}
    {name other : Bytes}
    (same : first ++ [name] = second ++ [other]) :
    first = second :=
  List.append_inj_left' same rfl

/-- A node put into a folder, where no folder was. -/
def put
    (disk : Disk)
    (parent : Location)
    (name : Bytes)
    (node : Node)
    (inFolder : disk.node? parent = some .folder)
    (named : isName name = true)
    (free : disk.node? (parent ++ [name]) ≠ some .folder) :
    Disk where
  nodes := disk.nodes.insert (parent ++ [name]) node
  here := disk.here
  rooted := by simp [disk.rooted]
  closed := by
    intro location other present
    have elsewhere :
        disk.nodes.get? location = some .folder →
        (disk.nodes.insert (parent ++ [name]) node).get? location = some .folder := by
      intro folder
      rw [Dictionary.get?_insert, if_neg, folder]
      intro same
      exact free (by rw [← same]; exact folder)
    rw [Dictionary.get?_insert] at present
    split at present
    next same =>
      have equal := append_singleton_inj same
      subst equal
      exact elsewhere inFolder
    next => exact elsewhere (disk.closed location other present)
  named := by
    intro location present
    rw [Dictionary.get?_insert] at present
    split at present
    next same =>
      have above := disk.named parent (by rw [show disk.nodes.get? parent = _ from inFolder]; rfl)
      simp [same, above, named]
    next => exact disk.named location present

/-- A node put where its folder is and no other folder stands; elsewhere nothing changes. -/
def graft (disk : Disk) (parent : Location) (name : Bytes) (node : Node) : Disk :=
  if inFolder : disk.node? parent = some .folder then
    if named : isName name = true then
      if free : disk.node? (parent ++ [name]) = some .folder then
        disk
      else
        disk.put parent name node inFolder named free
    else
      disk
  else
    disk

/-- A disk without a node and everything below it; the root stays. -/
def remove (disk : Disk) (location : Location) : Disk where
  nodes := disk.nodes.filter fun other => other = [] || !location.isPrefixOf other
  here := disk.here
  rooted := by simp [disk.rooted]
  closed := by
    intro parent name present
    rw [Dictionary.get?_filter] at present ⊢
    split at present
    next kept =>
      have folder := disk.closed parent name present
      rw [if_pos, folder]
      simp only [List.append_eq_nil_iff, List.cons_ne_self, and_false, decide_false,
        Bool.false_or, Bool.not_eq_true', Bool.or_eq_true, decide_eq_true_eq] at kept ⊢
      refine Or.inr ?_
      cases below : location.isPrefixOf parent with
      | false => rfl
      | true =>
          have longer : location.isPrefixOf (parent ++ [name]) = true := by
            rw [List.isPrefixOf_iff_prefix] at below ⊢
            exact below.trans (List.prefix_append parent [name])
          rw [longer] at kept
          exact kept
    next => simp at present
  named := by
    intro location present
    rw [Dictionary.get?_filter] at present
    split at present
    next => exact disk.named location present
    next => simp at present

/-- The working folder is another one. -/
def enter (disk : Disk) (location : Location) : Disk :=
  { disk with here := location }

/-- The names of the nodes in a folder, in increasing order. -/
def namesIn (disk : Disk) (folder : Location) : List Bytes :=
  disk.nodes.keys.filterMap fun location =>
    match location.getLast? with
    | some name => if location.dropLast = folder then some name else none
    | none => none

/-- The nodes that are not what they were on an earlier disk, outer ones first. -/
def changesSince (disk earlier : Disk) : List (Location × Node) :=
  disk.nodes.entries.filter fun entry => earlier.node? entry.1 ≠ some entry.2

/-- The greatest number of names in a location of the disk. -/
def depth (disk : Disk) : Nat :=
  disk.nodes.keys.foldl (fun most location => max most location.length) 0

/-- The contents of all files. -/
def contents (disk : Disk) : List Bytes :=
  disk.nodes.entries.filterMap fun entry =>
    match entry.2 with
    | .file content => some content
    | .folder => none

/-- A node that was put somewhere is found there, and every other location is untouched. -/
@[simp]
theorem node?_put
    (disk : Disk)
    (parent : Location)
    (name : Bytes)
    (node : Node)
    (inFolder : disk.node? parent = some .folder)
    (named : isName name = true)
    (free : disk.node? (parent ++ [name]) ≠ some .folder)
    (location : Location) :
    (disk.put parent name node inFolder named free).node? location =
      if location = parent ++ [name] then some node else disk.node? location :=
  Dictionary.get?_insert disk.nodes (parent ++ [name]) node location

/-- No location is longer than the depth of the disk. -/
theorem length_le_depth
    {disk : Disk}
    {location : Location}
    {node : Node}
    (found : disk.node? location = some node) :
    location.length ≤ disk.depth := by
  have member : location ∈ disk.nodes.keys :=
    List.mem_map_of_mem (Dictionary.get?_eq_some_iff.mp found)
  have grows : ∀ (locations : List Location) (start : Nat),
      start ≤ locations.foldl (fun most location => max most location.length) start := by
    intro locations
    induction locations with
    | nil => exact fun start => Nat.le_refl start
    | cons first rest ih =>
        exact fun start => Nat.le_trans (Nat.le_max_left _ _) (ih (max start first.length))
  unfold depth
  generalize disk.nodes.keys = locations at member
  generalize 0 = start
  induction locations generalizing start with
  | nil => simp at member
  | cons first rest ih =>
      rcases List.mem_cons.mp member with same | later
      · subst same
        exact Nat.le_trans (Nat.le_max_right _ _) (grows rest _)
      · exact ih later _

/-- The content of a file is among the contents of the disk. -/
theorem mem_contents
    {disk : Disk}
    {location : Location}
    {content : Bytes}
    (found : disk.node? location = some (.file content)) :
    content ∈ disk.contents :=
  List.mem_filterMap.mpr ⟨(location, .file content), Dictionary.get?_eq_some_iff.mp found, rfl⟩

end Disk
end Phrasebook
