import Phrasebook.Disk.Basic
import Phrasebook.Disk.Error

/-!
# Paths on a disk

A path is followed piece by piece from the root or from the working folder.  Every step starts in
a folder; an empty piece and a single dot stay there, two dots go to the folder around it, and any
other piece has to be a name.  A path that is too long as a whole, is empty or holds a NUL character
is not followed at all.
-/

namespace Phrasebook
namespace Disk

/-- The number of bytes that a path does not reach. -/
def pathLimit : Nat :=
  4096

/-- A path that can be followed is not empty, has no NUL character and is not too long. -/
def accept (path : Path) : Except SystemError Unit :=
  if path.bytes.any (fun byte => byte = 0) then .error .nulInPath
  else if path.bytes = [] then .error .notFound
  else if path.bytes.length < pathLimit then .ok ()
  else .error .nameTooLong

/--
The location that a piece of a path leads to from a folder.  A piece between slashes that is no name
is too long for one.
-/
def step (location : Location) (piece : Bytes) : Except SystemError Location :=
  if piece = [] ∨ piece = [Path.dot] then .ok location
  else if piece = [Path.dot, Path.dot] then .ok location.dropLast
  else if isName piece then .ok (location ++ [piece])
  else .error .nameTooLong

/-- The location holds a folder. -/
def expectFolder (disk : Disk) (location : Location) : Except SystemError Unit :=
  match disk.node? location with
  | none => .error .notFound
  | some (.file _) => .error .notADirectory
  | some .folder => .ok ()

/-- The location that pieces lead to; each of them is followed from a folder. -/
def follow (disk : Disk) (location : Location) : List Bytes → Except SystemError Location
  | [] => .ok location
  | piece :: rest => do
      disk.expectFolder location
      let next ← step location piece
      disk.follow next rest

/-- Where a path starts. -/
def startOf (disk : Disk) (path : Path) : Location :=
  if path.isAbsolute then [] else disk.here

/-- The location and the node that a path leads to. -/
def find (disk : Disk) (path : Path) : Except SystemError (Location × Node) := do
  accept path
  let location ← disk.follow (disk.startOf path) (Text.splitAt Path.slash path.bytes)
  match disk.node? location with
  | none => .error .notFound
  | some node => .ok (location, node)

/-- There is something at the path. -/
def holds (disk : Disk) (path : Path) : Bool :=
  match disk.find path with
  | .ok _ => true
  | .error _ => false

/-- There is a file at the path. -/
def holdsFile (disk : Disk) (path : Path) : Bool :=
  match disk.find path with
  | .ok (_, .file _) => true
  | _ => false

/-- There is a folder at the path. -/
def holdsFolder (disk : Disk) (path : Path) : Bool :=
  match disk.find path with
  | .ok (_, .folder) => true
  | _ => false

/-- The place where a path wants a node: the folder around it and the last piece. -/
structure Place (disk : Disk) where
  /-- The folder around the node. -/
  parent : Location
  /-- The folder is there. -/
  inFolder : disk.node? parent = some .folder
  /-- The last piece, which is empty or dots if the path names nothing new. -/
  last : Bytes
  /-- A slash stands behind the last piece. -/
  hasSlash : Bool

/-- The last piece names a file or folder. -/
def Place.hasName {disk : Disk} (place : Place disk) : Bool :=
  place.last ≠ [] && place.last ≠ [Path.dot] && place.last ≠ [Path.dot, Path.dot]

/-- The location that a place stands for. -/
def Place.location {disk : Disk} (place : Place disk) : Location :=
  place.parent ++ [place.last]

/-- The place of a path; trailing slashes are set apart from the last piece. -/
def placeOf (disk : Disk) (path : Path) : Except SystemError (Place disk) := do
  accept path
  let pieces := (Text.splitAt Path.slash path.bytes).reverse
  let named := pieces.dropWhile (· = [])
  let parent ← disk.follow (disk.startOf path) (named.drop 1).reverse
  match found : disk.node? parent with
  | none => .error .notFound
  | some (.file _) => .error .notADirectory
  | some .folder => .ok ⟨parent, found, named.headD [], pieces.head? = some []⟩

end Disk
end Phrasebook
