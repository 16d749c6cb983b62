import Phrasebook.Proofs.Disk.Trails

/-!
# Operations on two disks

An operation that is done on two disks looks at the locations on the trail of its path only, and of
files it only sees that they are there.  Where the disks hold nodes of the same kinds on the trail
it has the same outcome on both, whether it succeeds or not, and it changes both alike: whatever it
changes is the same on both afterwards, and the rest stays as it was on each of them.
-/

namespace Phrasebook

open Outcome

namespace Disk

/-- Two disks hold the same at a location. -/
def SameAt (first second : Disk) (location : Location) : Prop :=
  second.node? location = first.node? location

/-- Two disks hold the same at some locations. -/
structure AlikeAt (places : Location → Prop) (first second : Disk) : Prop where
  /-- The working folders are the same. -/
  here : second.here = first.here
  /-- The nodes at the locations are the same. -/
  nodes : ∀ location, places location → SameAt first second location

/-- A path passes through some locations only. -/
def Keeps (disk : Disk) (places : Location → Prop) (path : Path) : Prop :=
  ∀ location ∈ disk.trail path, places location

/-- Two disks are changed alike: where one of them has changed, they are the same afterwards. -/
structure ChangedAlike (first second firstAfter secondAfter : Disk) : Prop where
  /-- The working folder of the first disk stays. -/
  here : firstAfter.here = first.here
  /-- The working folder of the second disk stays. -/
  hereOther : secondAfter.here = second.here
  /-- Every location is the same on both disks, or it is as it was on each of them. -/
  nodes : ∀ location, SameAt firstAfter secondAfter location ∨
    SameAt first firstAfter location ∧ SameAt second secondAfter location

/-- Two attempts fail for the same cause, or they change the disks alike. -/
inductive AlikeAttempts (first second : Disk) :
    Except SystemError Disk → Except SystemError Disk → Prop where
  /-- Both fail. -/
  | failed (cause : SystemError) : AlikeAttempts first second (.error cause) (.error cause)
  /-- Both succeed. -/
  | done
      {firstAfter secondAfter : Disk}
      (changed : ChangedAlike first second firstAfter secondAfter) :
      AlikeAttempts first second (.ok firstAfter) (.ok secondAfter)

/-- Two operations have the same result and change the disks alike. -/
structure AlikeResults
    {Result : Type}
    (first second : Disk)
    (one other : Disk × Result) : Prop where
  /-- The disks are changed alike. -/
  disks : ChangedAlike first second one.1 other.1
  /-- The results are the same. -/
  results : other.2 = one.2

/-- Two outcomes are the same and the disks are changed alike. -/
structure AlikeOutcomes (first second : Disk) (one other : Outcome) : Prop where
  /-- The disks are changed alike. -/
  disks : ChangedAlike first second one.disk other.disk
  /-- The results are the same. -/
  results : other.result = one.result

variable
  {places : Location → Prop}
  {first second : Disk}
  {path : Path}

theorem SameAt.shape
    {location : Location}
    (same : SameAt first second location) :
    SameShapeAt first second location :=
  congrArg (Option.map Node.bare) same

theorem Keeps.congr
    (keeps : first.Keeps places path)
    (here : second.here = first.here) :
    second.Keeps places path := by
  intro location member
  apply keeps location
  rwa [trail, startOf, here, ← startOf, ← trail] at member

namespace AlikeAt

/-- Two disks with the same working folder are alike wherever they hold the same. -/
theorem of_here (here : second.here = first.here) :
    AlikeAt (SameAt first second) first second :=
  ⟨here, fun _ => id⟩

theorem along
    (alike : AlikeAt places first second)
    (keeps : first.Keeps places path) :
    AlikeAlong first second path :=
  ⟨alike.here, fun location member => alike.nodes location (keeps location member)⟩

end AlikeAt

/-! ## Disks that are changed alike -/

namespace ChangedAlike

variable {firstAfter secondAfter firstLast secondLast : Disk}

theorem refl (first second : Disk) : ChangedAlike first second first second :=
  ⟨rfl, rfl, fun _ => .inr ⟨rfl, rfl⟩⟩

theorem trans
    (early : ChangedAlike first second firstAfter secondAfter)
    (late : ChangedAlike firstAfter secondAfter firstLast secondLast) :
    ChangedAlike first second firstLast secondLast := by
  refine ⟨late.here.trans early.here, late.hereOther.trans early.hereOther, fun location => ?_⟩
  rcases late.nodes location with same | ⟨stays, staysOther⟩
  · exact .inl same
  · rcases early.nodes location with same | ⟨stayed, stayedOther⟩
    · exact .inl (staysOther.trans (Eq.trans same stays.symm))
    · exact .inr ⟨stays.trans stayed, staysOther.trans stayedOther⟩

variable (changed : ChangedAlike first second firstAfter secondAfter)

include changed

theorem sameHere (here : second.here = first.here) : secondAfter.here = firstAfter.here := by
  rw [changed.hereOther, changed.here, here]

theorem target (path : Path) : firstAfter.target path = first.target path := by
  rw [Disk.target, Disk.target, changed.here]

/-- What was the same is still the same. -/
theorem sameAt
    {location : Location}
    (same : SameAt first second location) :
    SameAt firstAfter secondAfter location := by
  rcases changed.nodes location with after | ⟨stays, staysOther⟩
  · exact after
  · exact staysOther.trans (Eq.trans same stays.symm)

/-- What was of the same kind is still of the same kind. -/
theorem sameShapeAt
    {location : Location}
    (same : SameShapeAt first second location) :
    SameShapeAt firstAfter secondAfter location := by
  rcases changed.nodes location with after | ⟨stays, staysOther⟩
  · exact after.shape
  · exact staysOther.shape.trans (Eq.trans same stays.shape.symm)

theorem alikeAlong (alike : AlikeAlong first second path) :
    AlikeAlong firstAfter secondAfter path := by
  refine ⟨changed.sameHere alike.here, fun location member => changed.sameAt ?_⟩
  rw [startOf, changed.here, ← startOf] at member
  exact alike.nodes location member

theorem sameShapeAlong (shaped : SameShapeAlong first second path) :
    SameShapeAlong firstAfter secondAfter path := by
  refine ⟨changed.sameHere shaped.here, fun location member => changed.sameShapeAt ?_⟩
  rw [startOf, changed.here, ← startOf] at member
  exact shaped.shapes location member

theorem alikeAt (alike : AlikeAt places first second) : AlikeAt places firstAfter secondAfter :=
  ⟨changed.sameHere alike.here, fun location place => changed.sameAt (alike.nodes location place)⟩

end ChangedAlike

/-- The same node that is put to the same location changes two disks alike. -/
theorem ChangedAlike.of_putAt
    {firstAfter secondAfter : Disk}
    {location : Location}
    {node : Node}
    (put : PutAt first location node firstAfter)
    (putOther : PutAt second location node secondAfter) :
    ChangedAlike first second firstAfter secondAfter := by
  refine ⟨put.here, putOther.here, fun other => ?_⟩
  by_cases here : other = location
  · exact .inl (by rw [SameAt, here, put.present, putOther.present])
  · refine .inr ⟨?_, ?_⟩
    · rw [SameAt, put.node?, if_neg here]
    · rw [SameAt, putOther.node?, if_neg here]

theorem AlikeAttempts.notFound_iff
    {one other : Except SystemError Disk}
    (attempts : AlikeAttempts first second one other) :
    other = .error .notFound ↔ one = .error .notFound := by
  cases attempts with
  | failed cause => simp
  | done changed => simp

theorem Keeps.above
    (keeps : first.Keeps places path)
    {above : Path}
    (isAbove : above.IsAbove path) :
    first.Keeps places above := by
  induction isAbove with
  | refl => exact keeps
  | tail _ outer ih => exact fun location member => ih location (mem_trail_of_parent? outer member)

namespace SameShapeAlong

variable (shaped : SameShapeAlong first second path)

include shaped

theorem above
    {above : Path}
    (isAbove : above.IsAbove path) :
    SameShapeAlong first second above := by
  have keeps : first.Keeps (SameShapeAt first second) path := shaped.shapes
  exact ⟨shaped.here, keeps.above isAbove⟩

theorem folderAround
    {name : Bytes}
    (named : path.fileName? = some name) :
    SameShapeAlong first second (folderAround path) :=
  ⟨shaped.here, fun location member =>
    shaped.shapes location (mem_trail_of_folderAround named member)⟩

end SameShapeAlong

/-! ## Places -/

/-- Two paths have no place for the same cause, or they have the same place. -/
inductive AlikePlaces :
    Except SystemError (Place first) → Except SystemError (Place second) → Prop where
  /-- Neither has a place. -/
  | failed (cause : SystemError) : AlikePlaces (.error cause) (.error cause)
  /-- Both have the same place. -/
  | placed
      {parent : Location}
      {last : Bytes}
      {hasSlash : Bool}
      (inFolder : first.node? parent = some .folder)
      (inOther : second.node? parent = some .folder) :
      AlikePlaces (.ok ⟨parent, inFolder, last, hasSlash⟩) (.ok ⟨parent, inOther, last, hasSlash⟩)

/-- The pieces in front of the last one pass through locations on the trail. -/
theorem mem_trail_of_mem_way
    {disk : Disk}
    {location : Location}
    (member : location ∈ way (disk.startOf path) ((backwards path).drop 1).reverse) :
    location ∈ disk.trail path := by
  by_cases empty : backwards path = []
  · rw [empty] at member
    rw [List.mem_singleton.mp member]
    exact start_mem_way _ _
  · obtain ⟨empties, pieces, -, -⟩ := splitAt_of_backwards_ne_nil empty
    rw [trail, pieces]
    exact mem_way_append_left _ member

/-- Paths have the same place where the pieces in front of the last one are followed alike. -/
theorem placeOf_alike_of_front
    (here : second.here = first.here)
    (shapes : ∀ location ∈ way (first.startOf path) ((backwards path).drop 1).reverse,
      SameShapeAt first second location) :
    AlikePlaces (first.placeOf path) (second.placeOf path) := by
  have start : second.startOf path = first.startOf path := by rw [startOf, startOf, here]
  have followed := follow_congr shapes
  rw [backwards] at followed
  unfold placeOf
  rw [start]
  simp only [followed]
  cases accept path with
  | error cause => exact .failed cause
  | ok =>
      simp only [bind, Except.bind]
      cases reached : first.follow (first.startOf path)
        (((Text.splitAt Path.slash path.bytes).reverse.dropWhile (· = [])).drop 1).reverse with
      | error cause => exact .failed cause
      | ok parent =>
          have same := shapes parent (mem_way_of_follow reached)
          unfold SameShapeAt bare? at same
          simp only
          split
          next nothing =>
            rw [nothing] at same
            split
            · exact .failed .notFound
            next content other => simp [other] at same
            next other => simp [other] at same
          next content file =>
            rw [file] at same
            split
            next other => simp [other] at same
            · exact .failed .notADirectory
            next other => simp [other, Node.bare] at same
          next inFolder =>
            rw [inFolder] at same
            split
            next other => simp [other] at same
            next content other => simp [other, Node.bare] at same
            next inOther => exact .placed inFolder inOther

theorem placeOf_alike (shaped : SameShapeAlong first second path) :
    AlikePlaces (first.placeOf path) (second.placeOf path) :=
  placeOf_alike_of_front shaped.here fun location member =>
    shaped.shapes location (mem_trail_of_mem_way member)

/-- A joined path has the same place where its base is followed alike. -/
theorem placeOf_join_alike
    {name : Bytes}
    (plain : Path.IsPlainName name)
    (shaped : SameShapeAlong first second path) :
    AlikePlaces (first.placeOf (path.join name)) (second.placeOf (path.join name)) := by
  obtain ⟨front, joined, original⟩ := Path.splitAt_join path plain
  refine placeOf_alike_of_front shaped.here fun location member => shaped.shapes location ?_
  rw [backwards_join plain joined, List.drop_one, List.tail_cons, List.reverse_reverse] at member
  rw [startOf, Path.isAbsolute_join path plain.head?_ne, ← startOf] at member
  rcases original with ⟨same, -⟩ | longer
  · rwa [same]
  · rw [longer]
    exact mem_way_append_left _ member

/-! ## Making and writing -/

section Operations

variable (shaped : SameShapeAlong first second path)

include shaped

/-- What is at the location of a new node is of the same kind on both disks. -/
theorem sameShapeAt_of_placeOf
    {parent : Location}
    {last : Bytes}
    {hasSlash : Bool}
    {inFolder : first.node? parent = some .folder}
    (placed : first.placeOf path = .ok ⟨parent, inFolder, last, hasSlash⟩)
    (named : isName last = true) :
    SameShapeAt first second (parent ++ [last]) := by
  apply shaped.shapes
  have reached := location_of_placeOf placed named
  rw [Place.location] at reached
  rw [reached]
  exact target_mem_trail first path

theorem makeFolder?_alike :
    AlikeAttempts first second (first.makeFolder? path) (second.makeFolder? path) := by
  have places := placeOf_alike shaped
  unfold makeFolder?
  generalize placed : first.placeOf path = one at places ⊢
  generalize second.placeOf path = other at places ⊢
  cases places with
  | failed cause => exact .failed cause
  | @placed parent last hasSlash inFolder inOther =>
      simp only
      by_cases named : isName last = true
      · have same := sameShapeAt_of_placeOf shaped placed named
        have free : second.node? (parent ++ [last]) = none ↔
            first.node? (parent ++ [last]) = none := by
          rw [← bare?_eq_none_iff, same, bare?_eq_none_iff]
        simp only [dif_pos named]
        by_cases isFree : first.node? (parent ++ [last]) = none
        · rw [dif_pos isFree, dif_pos (free.mpr isFree)]
          exact .done (.of_putAt (.put ⟨parent, inFolder, last, hasSlash⟩ .folder named _)
            (.put ⟨parent, inOther, last, hasSlash⟩ .folder named _))
        · rw [dif_neg isFree, dif_neg fun other => isFree (free.mp other)]
          exact .failed _
      · simp only [dif_neg named]
        exact .failed _

theorem createFile?_alike :
    AlikeAttempts first second (first.createFile? path) (second.createFile? path) := by
  have places := placeOf_alike shaped
  unfold createFile?
  generalize placed : first.placeOf path = one at places ⊢
  generalize second.placeOf path = other at places ⊢
  cases places with
  | failed cause => exact .failed cause
  | @placed parent last hasSlash inFolder inOther =>
      simp only [Place.hasName]
      split
      · exact .failed _
      · by_cases named : isName last = true
        · have same := sameShapeAt_of_placeOf shaped placed named
          unfold SameShapeAt bare? at same
          simp only [dif_pos named]
          split
          next folder =>
            rw [folder] at same
            split
            · exact .failed _
            next content other => simp [other, Node.bare] at same
            next other => simp [other] at same
          next content file =>
            rw [file] at same
            split
            next other => simp [other, Node.bare] at same
            · exact .done (.refl first second)
            next other => simp [other] at same
          next free =>
            rw [free] at same
            split
            next other => simp [other] at same
            next content other => simp [other] at same
            next =>
              exact .done (.of_putAt
                (.put ⟨parent, inFolder, last, hasSlash⟩ (.file []) named _)
                (.put ⟨parent, inOther, last, hasSlash⟩ (.file []) named _))
        · simp only [dif_neg named]
          exact .failed _

theorem replace_alike (content : Bytes) :
    AlikeAttempts first second (first.replace path content) (second.replace path content) := by
  have places := placeOf_alike shaped
  unfold replace
  generalize placed : first.placeOf path = one at places ⊢
  generalize second.placeOf path = other at places ⊢
  cases places with
  | failed cause => cases cause <;> exact .failed _
  | @placed parent last hasSlash inFolder inOther =>
      simp only [Place.hasName]
      split
      · exact .failed _
      · by_cases named : isName last = true
        · have same := sameShapeAt_of_placeOf shaped placed named
          have free : second.node? (parent ++ [last]) ≠ some .folder ↔
              first.node? (parent ++ [last]) ≠ some .folder := by
            rw [← bare?_eq_folder_iff.ne, same, bare?_eq_folder_iff.ne]
          simp only [dif_pos named]
          split
          · exact .failed _
          · by_cases isFree : first.node? (parent ++ [last]) ≠ some .folder
            · rw [dif_pos isFree, dif_pos (free.mpr isFree)]
              exact .done (.of_putAt
                (.put ⟨parent, inFolder, last, hasSlash⟩ (.file content) named _)
                (.put ⟨parent, inOther, last, hasSlash⟩ (.file content) named _))
            · rw [dif_neg isFree, dif_neg fun other => isFree (free.mp other)]
              exact .failed _
        · simp only [dif_neg named]
          exact .failed _

/-! ## Folders with those above them -/

theorem settle_alike : AlikeResults first second (first.settle path) (second.settle path) := by
  have attempts := makeFolder?_alike shaped
  have held := holdsFolder_congr_of_sameShape shaped
  unfold settle
  generalize first.makeFolder? path = one at attempts ⊢
  generalize second.makeFolder? path = other at attempts ⊢
  cases attempts with
  | failed cause => exact ⟨.refl first second, by simp only [held]⟩
  | done changed => exact ⟨changed, rfl⟩

omit shaped in
/-- Folders are made alike at paths past nodes of the same kinds. -/
theorem makeFoldersAt_alike
    {paths : List Path}
    (shaped : ∀ path ∈ paths, SameShapeAlong first second path) :
    AlikeResults first second (first.makeFoldersAt paths) (second.makeFoldersAt paths) := by
  induction paths with
  | nil => exact ⟨.refl first second, rfl⟩
  | cons path outer ih =>
      obtain ⟨shapedHere, shaped⟩ := List.forall_mem_cons.mp shaped
      have further := ih shaped
      by_cases nonempty : path.bytes = []
      · simp only [makeFoldersAt, if_pos nonempty]
        exact ⟨.refl first second, rfl⟩
      · have same := (makeFolder?_alike shapedHere).notFound_iff
        by_cases missing : first.makeFolder? path = .error .notFound
        · rw [makeFoldersAt_of_eq nonempty missing,
            makeFoldersAt_of_eq nonempty (same.mpr missing), further.results]
          split
          · have settled := settle_alike (further.disks.sameShapeAlong shapedHere)
            exact ⟨further.disks.trans settled.disks, settled.results⟩
          · exact further
        · rw [makeFoldersAt_of_ne nonempty missing,
            makeFoldersAt_of_ne nonempty fun other => missing (same.mp other)]
          exact settle_alike shapedHere

/-- Folders are made alike at a path and above it. -/
theorem makeFolders_alike (access : Access) :
    AlikeOutcomes first second (first.makeFolders access path)
      (second.makeFolders access path) := by
  unfold makeFolders
  split
  · have made : AlikeResults first second (first.makeFoldersAt (outwards path path.bytes.length))
        (second.makeFoldersAt (outwards path path.bytes.length)) :=
      makeFoldersAt_alike fun above member => shaped.above (isAbove_of_mem_outwards member)
    exact ⟨made.disks, congrArg (Except.mapError Error.system) made.results⟩
  · exact ⟨.refl first second, rfl⟩

theorem touch_alike (access : Access) :
    AlikeOutcomes first second (first.touch access path) (second.touch access path) := by
  have attempts := createFile?_alike shaped
  unfold touch
  split
  · generalize first.createFile? path = one at attempts ⊢
    generalize second.createFile? path = other at attempts ⊢
    cases attempts with
    | failed cause => exact ⟨.refl first second, rfl⟩
    | done changed => exact ⟨changed, rfl⟩
  · exact ⟨.refl first second, rfl⟩

/-- Whether a temporary file can be made in a folder is decided on the trail of the folder. -/
theorem makeTemporary_congr : second.makeTemporary path = first.makeTemporary path := by
  have plain : Path.IsPlainName temporaryName := by
    constructor <;> decide
  have placed := placeOf_join_alike plain shaped
  unfold makeTemporary
  generalize first.placeOf _ = one at placed ⊢
  generalize second.placeOf _ = other at placed ⊢
  cases placed with
  | failed cause => rfl
  | placed inFolder inOther => rfl

theorem write_alike
    {name : Bytes}
    (named : path.fileName? = some name)
    (access : Access)
    (text : Text) :
    AlikeOutcomes first second (first.write access path text) (second.write access path text) := by
  have attempts := replace_alike shaped (Text.encode text)
  have temporary := makeTemporary_congr (shaped.folderAround named)
  unfold write
  rw [temporary]
  split
  · split
    · exact ⟨.refl first second, rfl⟩
    · generalize first.replace path _ = one at attempts ⊢
      generalize second.replace path _ = other at attempts ⊢
      cases attempts with
      | failed cause => exact ⟨.refl first second, rfl⟩
      | done changed => exact ⟨changed, rfl⟩
  · exact ⟨.refl first second, rfl⟩

end Operations

end Disk
end Phrasebook
