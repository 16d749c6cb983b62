import Phrasebook.Disk.Access

/-!
# Walks

A walk visits the files below a folder.  It takes the nodes of a folder in the order of their
names, goes down into each folder as it meets it, and passes over everything whose name is hidden.
A folder that cannot be listed is met, but nothing in it is; the walk goes on behind it.
-/

namespace Phrasebook
namespace Disk

/-- Why a walk cannot list the folder that it meets at a path and a location, if it cannot. -/
def refusal? (access : Access) (path : Path) (location : Location) : Option SystemError :=
  match accept path with
  | .error cause => some cause
  | .ok () => if access.mayList location then none else some .permissionDenied

/--
The ways from a folder, to which a path leads, to what a walk meets below it.  Each folder comes in
front of what is in it.
-/
def entriesBelow (disk : Disk) (access : Access) (path : Path) (folder : Location) :
    List Location :=
  if refusal? access path folder = none then
    (disk.namesIn folder).flatMap fun name =>
      if Path.isHidden name then
        []
      else
        match _found : disk.node? (folder ++ [name]) with
        | none => []
        | some (.file _) => [[name]]
        | some .folder =>
            let inside := disk.entriesBelow access (path.join name) (folder ++ [name])
            [name] :: inside.map (name :: ·)
  else
    []
termination_by disk.depth - folder.length
decreasing_by
  have bounded := length_le_depth (by assumption)
  simp only [List.length_append, List.length_singleton] at bounded ⊢
  omega

/-- The location holds a file. -/
def isFileAt (disk : Disk) (location : Location) : Bool :=
  match disk.node? location with
  | some (.file _) => true
  | _ => false

/-- The ways from a folder to the files that a walk meets below it. -/
def filesBelow (disk : Disk) (access : Access) (path : Path) (folder : Location) :
    List Location :=
  (disk.entriesBelow access path folder).filter fun names => disk.isFileAt (folder ++ names)

/-- Why a walk cannot list what names from a folder lead to, if that is a folder. -/
def closedAt?
    (disk : Disk)
    (access : Access)
    (path : Path)
    (folder names : Location) :
    Option (Location × SystemError) :=
  if disk.node? (folder ++ names) = some .folder then
    (refusal? access (names.foldl Path.join path) (folder ++ names)).map fun cause => (names, cause)
  else
    none

/-- The ways from a folder to the folders that a walk cannot list, itself included, with causes. -/
def closedBelow (disk : Disk) (access : Access) (path : Path) (folder : Location) :
    List (Location × SystemError) :=
  ([] :: disk.entriesBelow access path folder).filterMap (disk.closedAt? access path folder)

/-- What a walk has met. -/
structure Walk where
  /-- The files, in the order in which they were met. -/
  files : List Path
  /-- The folders that could not be listed, in the order in which they were met, with causes. -/
  closed : List (Path × SystemError)
  deriving DecidableEq

/-- A walk from the folder at a path, which is met first. -/
def walk (disk : Disk) (access : Access) (root : Path) : Except Error Walk := do
  permit (access.mayRead root) root
  match disk.find root with
  | .ok (location, .folder) =>
      .ok
        { files :=
            (disk.filesBelow access root location).map fun names => names.foldl Path.join root
          closed :=
            (disk.closedBelow access root location).map fun (names, cause) =>
              (names.foldl Path.join root, cause) }
  | _ => .error (.notAFolder root)

/-- The folders that a walk passes over because it cannot list them, with causes. -/
def passedOver (disk : Disk) (access : Access) (root : Path) : List (Path × SystemError) :=
  match disk.walk access root with
  | .error _ => []
  | .ok walk => walk.closed

end Disk
end Phrasebook
