import Phrasebook.Proofs.Disk.Listing

/-!
# Places of new nodes

A path wants a new node at the location that it leads to, in the folder that its pieces but the last
one lead to.  An operation that puts a node there changes that one location, and a file that was
written can be found by the path that it was written to.
-/

namespace Phrasebook

open Outcome

namespace Disk

/-- The pieces of a path backwards, from the last one that is not empty. -/
def backwards (path : Path) : List Bytes :=
  (Text.splitAt Path.slash path.bytes).reverse.dropWhile (· = [])

variable
  {disk : Disk}
  {path : Path}
  {location : Location}

/-- The pieces of a path are those in front of the last one, that one, and empty ones. -/
theorem splitAt_of_backwards_ne_nil (nonempty : backwards path ≠ []) :
    ∃ empties, Text.splitAt Path.slash path.bytes =
        ((backwards path).drop 1).reverse ++ (backwards path).headD [] :: empties ∧
      (∀ piece ∈ empties, piece = []) ∧
      ((Text.splitAt Path.slash path.bytes).reverse.head? ≠ some [] → empties = []) := by
  have parts := List.takeWhile_append_dropWhile (p := (· = []))
    (l := (Text.splitAt Path.slash path.bytes).reverse)
  obtain ⟨last, front, whole⟩ := List.exists_cons_of_ne_nil nonempty
  rw [backwards] at whole
  refine ⟨((Text.splitAt Path.slash path.bytes).reverse.takeWhile (· = [])).reverse, ?_, ?_, ?_⟩
  · rw [backwards, whole, ← List.reverse_reverse (Text.splitAt Path.slash path.bytes)]
    conv_lhs => rw [← parts, whole]
    simp
  · intro piece member
    have test := List.all_eq_true.mp List.all_takeWhile piece (List.mem_reverse.mp member)
    simpa using test
  · intro noSlash
    cases pieces : (Text.splitAt Path.slash path.bytes).reverse with
    | nil => simp
    | cons first rest =>
        rw [pieces] at noSlash
        rw [List.takeWhile_cons_of_neg (by simpa using noSlash), List.reverse_nil]

theorem foldl_beyond_of_forall_eq_nil
    {empties : List Bytes}
    (empty : ∀ piece ∈ empties, piece = [])
    (location : Location) :
    empties.foldl beyond location = location := by
  induction empties with
  | nil => rfl
  | cons piece rest ih =>
      rw [List.foldl_cons, empty piece List.mem_cons_self]
      exact ih fun other member => empty other (List.mem_cons_of_mem piece member)

theorem nonempty_of_accept (accepted : accept path = .ok ()) : path.bytes ≠ [] := by
  intro nothing
  simp [accept, nothing] at accepted

theorem accept_ne_notFound (nonempty : path.bytes ≠ []) : accept path ≠ .error .notFound := by
  unfold accept
  rw [if_neg nonempty]
  split
  · simp
  · split <;> simp

theorem placeOf_eq_ok
    {place : Place disk}
    (placed : disk.placeOf path = .ok place) :
    accept path = .ok () ∧
      disk.follow (disk.startOf path) ((backwards path).drop 1).reverse = .ok place.parent ∧
      place.last = (backwards path).headD [] ∧
      place.hasSlash = decide ((Text.splitAt Path.slash path.bytes).reverse.head? = some []) := by
  unfold placeOf at placed
  obtain ⟨_, accepted, placed⟩ := bind_eq_ok_iff.mp placed
  obtain ⟨parent, followed, placed⟩ := bind_eq_ok_iff.mp placed
  split at placed
  · simp at placed
  · simp at placed
  next found =>
    rw [Except.ok.injEq] at placed
    subst placed
    exact ⟨accepted, followed, rfl, rfl⟩

/-- A path whose pieces but the last one lead to a folder has a place there. -/
theorem exists_placeOf
    (accepted : accept path = .ok ())
    (followed : disk.follow (disk.startOf path) ((backwards path).drop 1).reverse = .ok location)
    (inFolder : disk.node? location = some .folder) :
    ∃ place : Place disk, disk.placeOf path = .ok place ∧ place.parent = location := by
  rw [backwards] at followed
  simp only [placeOf, accepted, followed, bind, Except.bind]
  split
  next nothing => simp [inFolder] at nothing
  next file => simp [inFolder] at file
  next => exact ⟨_, rfl, rfl⟩

/-- A place with a name is the location that its path leads to. -/
theorem location_of_placeOf
    {place : Place disk}
    (placed : disk.placeOf path = .ok place)
    (named : isName place.last = true) :
    place.location = disk.target path := by
  obtain ⟨accepted, followed, last, -⟩ := placeOf_eq_ok placed
  have plain := isPlainName_of_isName named
  have nonempty : backwards path ≠ [] := by
    intro nothing
    rw [nothing] at last
    exact plain.nonempty last
  obtain ⟨empties, pieces, empty, -⟩ := splitAt_of_backwards_ne_nil nonempty
  rw [target_eq_foldl_beyond disk (nonempty_of_accept accepted), pieces, List.foldl_append,
    List.foldl_cons, foldl_beyond_of_forall_eq_nil empty, ← last, beyond_of_isPlainName plain,
    foldl_beyond, ← follow_eq_ok followed]
  rfl

theorem follow_append (disk : Disk) (location : Location) (front behind : List Bytes) :
    disk.follow location (front ++ behind) =
      disk.follow location front >>= fun reached => disk.follow reached behind := by
  induction front generalizing location with
  | nil => rfl
  | cons piece front ih => simp only [List.cons_append, follow, ih, bind_assoc]

theorem expectFolder_eq_ok_iff :
    disk.expectFolder location = .ok () ↔ disk.node? location = some .folder := by
  unfold expectFolder
  split <;> simp_all

theorem step_of_isName {name : Bytes} (named : isName name = true) :
    step location name = .ok (location ++ [name]) := by
  have plain := isPlainName_of_isName named
  simp [step, plain.nonempty, plain.notHere, plain.notUp, named]

/-- Slashes at the end of a path stay in the folder that the path leads to. -/
theorem follow_of_forall_eq_nil
    {empties : List Bytes}
    (empty : ∀ piece ∈ empties, piece = [])
    (inFolder : disk.node? location = some .folder) :
    disk.follow location empties = .ok location := by
  induction empties with
  | nil => rfl
  | cons piece rest ih =>
      obtain ⟨nothing, empty⟩ := List.forall_mem_cons.mp empty
      rw [follow, expectFolder_eq_ok_iff.mpr inFolder, step, if_pos (.inl nothing)]
      exact ih empty

/-! ## Disks on which folders stay -/

section Kept

variable
  {after : Disk}
  (kept : ∀ folder, disk.node? folder = some .folder → after.node? folder = some .folder)

include kept

/-- Pieces that can be followed can still be followed where folders have stayed. -/
theorem follow_of_kept
    {last : Location}
    {pieces : List Bytes}
    (followed : disk.follow location pieces = .ok last) :
    after.follow location pieces = .ok last := by
  induction pieces generalizing location with
  | nil => exact followed
  | cons piece pieces ih =>
      rw [follow] at followed ⊢
      obtain ⟨_, expected, followed⟩ := bind_eq_ok_iff.mp followed
      obtain ⟨next, taken, followed⟩ := bind_eq_ok_iff.mp followed
      have folder := kept location (expectFolder_eq_ok_iff.mp expected)
      rw [expectFolder_eq_ok_iff.mpr folder, taken]
      exact ih followed

variable (here : after.here = disk.here)

include here

theorem find_of_kept
    {node : Node}
    (found : disk.find path = .ok (location, node))
    (present : after.node? location = some node) :
    after.find path = .ok (location, node) := by
  obtain ⟨accepted, followed, -⟩ := find_eq_ok_iff.mp found
  refine find_eq_ok_iff.mpr ⟨accepted, ?_, present⟩
  rw [startOf, here, ← startOf]
  exact follow_of_kept kept followed

theorem placeOf_of_kept
    {place : Place disk}
    (placed : disk.placeOf path = .ok place) :
    ∃ later : Place after, after.placeOf path = .ok later ∧ later.parent = place.parent ∧
      later.last = place.last ∧ later.hasSlash = place.hasSlash := by
  obtain ⟨accepted, followed, last, slash⟩ := placeOf_eq_ok placed
  have followedLater := follow_of_kept kept followed
  rw [startOf, ← here, ← startOf] at followedLater
  obtain ⟨later, placedLater, parent⟩ :=
    exists_placeOf accepted followedLater (kept place.parent place.inFolder)
  obtain ⟨-, -, lastLater, slashLater⟩ := placeOf_eq_ok placedLater
  exact ⟨later, placedLater, parent, lastLater.trans last.symm, slashLater.trans slash.symm⟩

/-- A path with a name at its end leads to what has come to its place. -/
theorem find_of_placeOf
    {place : Place disk}
    {node : Node}
    (placed : disk.placeOf path = .ok place)
    (named : isName place.last = true)
    (fits : place.hasSlash = true → node = .folder)
    (present : after.node? place.location = some node) :
    after.find path = .ok (place.location, node) := by
  obtain ⟨accepted, followed, last, slash⟩ := placeOf_eq_ok placed
  have nonempty : backwards path ≠ [] := by
    intro nothing
    rw [nothing] at last
    exact (isPlainName_of_isName named).nonempty last
  obtain ⟨empties, pieces, empty, alone⟩ := splitAt_of_backwards_ne_nil nonempty
  rw [← last] at pieces
  have followedLater := follow_of_kept kept followed
  have rest : after.follow place.location empties = .ok place.location := by
    cases behind : place.hasSlash with
    | true => exact follow_of_forall_eq_nil empty (by rw [present, fits behind])
    | false =>
        rw [alone (by simpa [behind] using slash.symm)]
        rfl
  have reached : after.follow (after.startOf path) (Text.splitAt Path.slash path.bytes) =
      .ok place.location := by
    rw [pieces, follow_append, startOf, here, ← startOf, followedLater]
    simp only [bind, Except.bind, follow, step_of_isName named,
      expectFolder_eq_ok_iff.mpr (kept place.parent place.inFolder)]
    exact rest
  simp only [find, accepted, reached, present, bind, Except.bind]

end Kept

/-! ## Joined paths -/

section Join

variable
  {base : Path}
  {name : Bytes}

section Relative

variable (relative : name.head? ≠ some Path.slash)

include relative

theorem accept_of_accept_join
    (nonempty : base.bytes ≠ [])
    (accepted : accept (base.join name) = .ok ()) :
    accept base = .ok () := by
  obtain ⟨behind, whole⟩ := Path.prefix_join nonempty relative
  unfold accept at accepted ⊢
  rw [← whole, List.any_append, List.length_append] at accepted
  split at accepted
  · simp at accepted
  next noNul =>
    split at accepted
    · simp at accepted
    · split at accepted
      next short =>
        rw [if_neg (fun nul => noNul (by rw [nul, Bool.true_or])), if_neg nonempty,
          if_pos (Nat.lt_of_le_of_lt (Nat.le_add_right _ _) short)]
      next => simp at accepted

/-- Where there is something at a joined path, its base leads to a folder. -/
theorem find_of_find_join
    {node : Node}
    (nonempty : base.bytes ≠ [])
    (found : disk.find (base.join name) = .ok (location, node)) :
    disk.find base = .ok (disk.target base, .folder) := by
  obtain ⟨accepted, followed, -⟩ := find_eq_ok_iff.mp found
  obtain ⟨front, joined, original⟩ := Path.splitAt_join_of_relative base relative
  obtain ⟨piece, pieces, split⟩ :=
    List.exists_cons_of_ne_nil (Text.splitAt_ne_nil Path.slash name)
  rw [joined, split, follow_append, startOf, Path.isAbsolute_join base relative,
    ← startOf] at followed
  obtain ⟨reached, followed, step⟩ := bind_eq_ok_iff.mp followed
  obtain ⟨_, expected, -⟩ := bind_eq_ok_iff.mp step
  have inFolder := expectFolder_eq_ok_iff.mp expected
  have followedBase :
      disk.follow (disk.startOf base) (Text.splitAt Path.slash base.bytes) = .ok reached := by
    rcases original with ⟨same, -⟩ | longer
    · rw [same, followed]
    · rw [longer, follow_append, followed]
      exact follow_of_forall_eq_nil (by simp) inFolder
  have foundBase := find_eq_ok_iff.mpr
    ⟨accept_of_accept_join relative nonempty accepted, followedBase, inFolder⟩
  rwa [(find_eq_ok foundBase).1] at foundBase

end Relative

variable (plain : Path.IsPlainName name)

include plain

/-- The pieces of a base lead to a folder as those in front of a name joined to it do. -/
theorem follow_front_join
    {front : List Bytes}
    (joined : Text.splitAt Path.slash (base.join name).bytes = front ++ [name])
    (inFolder : disk.node? location = some .folder) :
    disk.follow (disk.startOf base) (Text.splitAt Path.slash base.bytes) = .ok location ↔
      disk.follow (disk.startOf (base.join name)) front = .ok location := by
  rw [startOf, startOf, Path.isAbsolute_join base plain.head?_ne]
  obtain ⟨other, joinedOther, original⟩ := Path.splitAt_join base plain
  obtain rfl : other = front := List.append_cancel_right (joinedOther.symm.trans joined)
  rcases original with ⟨same, -⟩ | longer
  · rw [same]
  · rw [longer, follow_append, bind_eq_ok_iff]
    have stays : ∀ reached, disk.follow reached [[]] = .ok location ↔ reached = location := by
      intro reached
      simp only [follow, step, true_or, if_true, bind, Except.bind]
      cases expected : disk.expectFolder reached with
      | ok => simp
      | error cause =>
          refine iff_of_false (by simp) ?_
          rintro rfl
          rw [expectFolder_eq_ok_iff.mpr inFolder] at expected
          simp at expected
    simp [stays]

theorem backwards_join
    {front : List Bytes}
    (joined : Text.splitAt Path.slash (base.join name).bytes = front ++ [name]) :
    backwards (base.join name) = name :: front.reverse := by
  rw [backwards, joined, List.reverse_append, List.reverse_singleton, List.singleton_append,
    List.dropWhile_cons_of_neg (by simpa using plain.nonempty)]

/-- A path joined to one that leads to a folder has its place in that folder. -/
theorem placeOf_join
    (inFolder : disk.find base = .ok (location, .folder))
    (accepted : accept (base.join name) = .ok ()) :
    ∃ place : Place disk, disk.placeOf (base.join name) = .ok place ∧ place.parent = location := by
  obtain ⟨-, followed, folder⟩ := find_eq_ok_iff.mp inFolder
  obtain ⟨front, joined, -⟩ := Path.splitAt_join base plain
  refine exists_placeOf accepted ?_ folder
  rw [backwards_join plain joined, List.drop_one, List.tail_cons, List.reverse_reverse]
  exact (follow_front_join plain joined folder).mp followed

/-- A node in a folder that a path leads to is found by the joined path. -/
theorem find_join
    {node : Node}
    (inFolder : disk.find base = .ok (location, .folder))
    (accepted : accept (base.join name) = .ok ())
    (present : disk.node? (location ++ [name]) = some node) :
    disk.find (base.join name) = .ok (location ++ [name], node) := by
  obtain ⟨-, followed, folder⟩ := find_eq_ok_iff.mp inFolder
  obtain ⟨front, joined, -⟩ := Path.splitAt_join base plain
  refine find_eq_ok_iff.mpr ⟨accepted, ?_, present⟩
  have named : isName name = true := by
    have member : name ∈ disk.namesIn location := by
      rw [mem_namesIn, present]
      rfl
    exact isName_of_mem_namesIn member
  rw [joined, follow_append, (follow_front_join plain joined folder).mp followed]
  simp only [bind, Except.bind, follow, step_of_isName named, expectFolder_eq_ok_iff.mpr folder]

/-- In a folder, no folder fails to be made for want of the one around it. -/
theorem makeFolder?_join_ne_notFound (inFolder : disk.find base = .ok (location, .folder)) :
    disk.makeFolder? (base.join name) ≠ .error .notFound := by
  have nonempty := nonempty_of_accept (find_eq_ok_iff.mp inFolder).1
  obtain ⟨behind, whole⟩ := Path.prefix_join nonempty plain.head?_ne
  unfold makeFolder?
  cases accepted : accept (base.join name) with
  | error cause =>
      have placed : disk.placeOf (base.join name) = .error cause := by
        rw [placeOf, accepted]
        rfl
      rw [placed]
      intro same
      rw [Except.error.inj same] at accepted
      refine accept_ne_notFound ?_ accepted
      rw [← whole]
      exact List.append_ne_nil_of_left_ne_nil nonempty behind
  | ok =>
      obtain ⟨place, placed, -⟩ := placeOf_join plain inFolder accepted
      rw [placed]
      simp only
      split
      · split <;> simp
      · split <;> simp

end Join

/-! ## Nodes put at places -/

/-- A disk with one location changed: there stands a node where no folder stood before. -/
structure PutAt (disk : Disk) (location : Location) (node : Node) (after : Disk) : Prop where
  /-- The working folder stays. -/
  here : after.here = disk.here
  /-- The node stands at the location, and elsewhere nothing has changed. -/
  node? : ∀ other, after.node? other = if other = location then some node else disk.node? other
  /-- No folder is lost. -/
  free : disk.node? location ≠ some .folder

namespace PutAt

variable {node : Node} {after : Disk}

theorem put
    (place : Place disk)
    (node : Node)
    (named : isName place.last = true)
    (free : disk.node? (place.parent ++ [place.last]) ≠ some .folder) :
    PutAt disk place.location node
      (disk.put place.parent place.last node place.inFolder named free) :=
  ⟨rfl, node?_put disk place.parent place.last node place.inFolder named free, free⟩

theorem present (changed : PutAt disk location node after) : after.node? location = some node := by
  rw [changed.node?, if_pos rfl]

theorem kept
    (changed : PutAt disk location node after)
    {folder : Location}
    (present : disk.node? folder = some .folder) :
    after.node? folder = some .folder := by
  rw [changed.node?, if_neg, present]
  rintro rfl
  exact changed.free present

end PutAt

/-- A node that is grafted somewhere leaves every other location as it is. -/
theorem node?_graft_of_ne
    (disk : Disk)
    (parent : Location)
    (name : Bytes)
    (node : Node)
    (other : location ≠ parent ++ [name]) :
    (disk.graft parent name node).node? location = disk.node? location := by
  unfold graft
  split
  · split
    · split
      · rfl
      · rw [node?_put, if_neg other]
    · rfl
  · rfl

/-- A file that gets another content is still a file. -/
theorem bare?_graft_of_file
    {parent : Location}
    {name : Bytes}
    (isFile : disk.bare? (parent ++ [name]) = some (.file []))
    {content : Bytes} :
    (disk.graft parent name (.file content)).bare? location = disk.bare? location := by
  unfold graft
  split
  · split
    · split
      · rfl
      · rw [bare?, node?_put]
        split
        next same => rw [same, isFile, Option.map_some, Node.bare]
        next => rfl
    · rfl
  · rfl

@[simp]
theorem here_graft (disk : Disk) (parent : Location) (name : Bytes) (node : Node) :
    (disk.graft parent name node).here = disk.here := by
  unfold graft
  split
  · split
    · split <;> rfl
    · rfl
  · rfl

/-- A disk is determined by its working folder and its nodes. -/
theorem eq_of_node?
    {first second : Disk}
    (here : first.here = second.here)
    (same : ∀ location, first.node? location = second.node? location) :
    first = second := by
  obtain ⟨nodes, _, _, _, _⟩ := first
  obtain ⟨others, _, _, _, _⟩ := second
  have equal : nodes = others := Dictionary.ext_get? same
  subst equal
  subst here
  rfl

variable {after : Disk} {content : Bytes}

/-- A folder that was made is at a free location. -/
theorem putAt_of_makeFolder? (made : disk.makeFolder? path = .ok after) :
    PutAt disk (disk.target path) .folder after ∧ disk.node? (disk.target path) = none := by
  unfold makeFolder? at made
  split at made
  · simp at made
  next place placed =>
    split at made
    next named =>
      split at made
      next free =>
        rw [Except.ok.injEq] at made
        subst made
        rw [← location_of_placeOf placed named]
        exact ⟨PutAt.put place .folder named _, free⟩
      next => simp at made
    next => simp at made

/-- A file that was created is empty or was there before. -/
theorem putAt_of_createFile? (created : disk.createFile? path = .ok after) :
    after = disk ∨
      PutAt disk (disk.target path) (.file []) after ∧ disk.node? (disk.target path) = none := by
  unfold createFile? at created
  split at created
  · simp at created
  next place placed =>
    split at created
    · simp at created
    · split at created
      next named =>
        split at created
        · simp at created
        · exact .inl (Except.ok.inj created).symm
        next free =>
          rw [Except.ok.injEq] at created
          subst created
          rw [← location_of_placeOf placed named]
          exact .inr ⟨PutAt.put place (.file []) named _, free⟩
      next => simp at created

/-- A file that was replaced has the new content, and its path leads to it. -/
theorem putAt_of_replace (replaced : disk.replace path content = .ok after) :
    PutAt disk (disk.target path) (.file content) after ∧
      after.find path = .ok (disk.target path, .file content) := by
  unfold replace at replaced
  split at replaced
  · simp at replaced
  · simp at replaced
  next place placed =>
    split at replaced
    · simp at replaced
    · split at replaced
      next named =>
        split at replaced
        · simp at replaced
        next noSlash =>
          split at replaced
          next free =>
            rw [Except.ok.injEq] at replaced
            subst replaced
            have changed := PutAt.put place (.file content) named free
            have found := find_of_placeOf (fun _ => changed.kept) changed.here placed named
              (fun slash => absurd slash noSlash) changed.present
            rw [location_of_placeOf placed named] at changed found
            exact ⟨changed, found⟩
          next => simp at replaced
      next => simp at replaced

/-- A file with the same content is replaced by itself. -/
theorem replace_self
    {last : Disk}
    (replaced : disk.replace path content = .ok after)
    (kept : ∀ folder, disk.node? folder = some .folder → last.node? folder = some .folder)
    (here : last.here = disk.here)
    (present : last.node? (disk.target path) = some (.file content)) :
    last.replace path content = .ok last := by
  unfold replace at replaced
  split at replaced
  · simp at replaced
  · simp at replaced
  next place placed =>
    obtain ⟨later, placedLater, parent, name, slash⟩ := placeOf_of_kept kept here placed
    split at replaced
    · simp at replaced
    next hasName =>
      split at replaced
      next named =>
        have target := location_of_placeOf placed named
        have same : later.parent ++ [place.last] = disk.target path := by
          rw [parent, ← target]
          rfl
        have free : last.node? (later.parent ++ [place.last]) ≠ some .folder := by
          rw [same, present]
          simp
        split at replaced
        · simp at replaced
        next noSlash =>
          unfold replace
          rw [placedLater]
          simp only [Place.hasName, name, slash] at hasName ⊢
          rw [if_neg hasName, dif_pos named, if_neg noSlash, dif_pos free]
          -- What is put at the place is what stands there already.
          refine congrArg Except.ok (eq_of_node? rfl fun location => ?_)
          rw [node?_put]
          split
          next there => rw [there, same, present]
          next => rfl
      next => simp at replaced

end Disk
end Phrasebook
