import Phrasebook.Disk.Resolve

/-!
# Access to a disk

A program reads and changes a disk by way of paths, as far as access to them is granted.  Looking
whether something is there is always granted.  Besides, the operating system lets some folders be
entered but not listed.  Writing a file is one step: it leaves the file as it was or with its new
content.
-/

namespace Phrasebook

/-- What may be accessed, and for what. -/
structure Access where
  /-- Files and folders at these paths may be read. -/
  mayRead : Path → Bool := fun _ => true
  /-- The names in the folders at these locations may be listed. -/
  mayList : Location → Bool := fun _ => true
  /-- Folders at these paths may be made. -/
  mayMakeFolder : Path → Bool := fun _ => true
  /-- Files at these paths may be created empty. -/
  mayTouch : Path → Bool := fun _ => true
  /-- Files at these paths may be written. -/
  mayWrite : Path → Bool := fun _ => true

namespace Access

/-- Access to every path is granted. -/
def full : Access :=
  {}

/-- Access is denied at and below some paths, for reading and for any change. -/
def denying (unreadable unwritable : List Path) : Access :=
  let within (bases : List Path) (path : Path) := bases.any path.isWithin
  { mayRead := fun path => !within unreadable path
    mayMakeFolder := fun path => !within unwritable path
    mayTouch := fun path => !within unwritable path
    mayWrite := fun path => !within unwritable path }

end Access

namespace Disk

/-- An operation fails if access to its path is denied. -/
def permit (granted : Bool) (path : Path) : Except Error Unit :=
  if granted then .ok () else .error (.denied path)

/-- The content of the file at a path. -/
def readBytes (disk : Disk) (access : Access) (path : Path) : Except Error Bytes := do
  permit (access.mayRead path) path
  match disk.find path with
  | .error cause => .error (.system cause)
  | .ok (_, .folder) => .error (.system .isADirectory)
  | .ok (_, .file content) => .ok content

/-- The text in the file at a path, unless the file holds something else. -/
def readText (disk : Disk) (access : Access) (path : Path) : Except Error Text := do
  let content ← disk.readBytes access path
  match Text.decode? content with
  | none => .error (.system .invalidData)
  | some text => .ok text

/-- The text in the file at a path, with U+FFFD in the place of invalid parts. -/
def readLossy (disk : Disk) (access : Access) (path : Path) : Except Error Text :=
  (disk.readBytes access path).map Text.decodeLossy

/-- The paths of the nodes in the folder at a path, in the order of their names. -/
def list (disk : Disk) (access : Access) (path : Path) : Except Error (List Path) := do
  permit (access.mayRead path) path
  match disk.find path with
  | .error cause => .error (.system cause)
  | .ok (_, .file _) => .error (.system .notADirectory)
  | .ok (location, .folder) =>
      if access.mayList location then
        .ok ((disk.namesIn location).map path.join)
      else
        .error (.system .permissionDenied)

/-- A disk after an operation, and whether the operation succeeded. -/
structure Outcome where
  /-- The disk afterwards. -/
  disk : Disk
  /-- What became of the operation. -/
  result : Except Error Unit

/-- The disk with a new folder at a path. -/
def makeFolder? (disk : Disk) (path : Path) : Except SystemError Disk :=
  match disk.placeOf path with
  | .error cause => .error cause
  | .ok place =>
      if named : isName place.last = true then
        if free : disk.node? (place.parent ++ [place.last]) = none then
          .ok (disk.put place.parent place.last .folder place.inFolder named (by simp [free]))
        else
          .error .alreadyExists
      else
        .error (if place.hasName then .nameTooLong else .alreadyExists)

/-- The paths above a path, from the path itself outwards; each is the parent of the former. -/
def outwards (path : Path) : Nat → List Path
  | 0 => [path]
  | count + 1 =>
      match path.parent? with
      | none => [path]
      | some parent => path :: outwards parent count

/--
The disk with folders at a path and at all paths above it, which come from the inside out: a folder
that cannot be made for want of the one around it is tried again when that one has been made.
-/
def makeFoldersAt (disk : Disk) : List Path → Disk × Except SystemError Unit
  | [] => (disk, .error .noTree)
  | path :: outer =>
      let afterwards (disk : Disk) : Disk × Except SystemError Unit :=
        match disk.makeFolder? path with
        | .ok made => (made, .ok ())
        | .error cause => (disk, if disk.holdsFolder path then .ok () else .error cause)
      if path.bytes = [] then
        (disk, .ok ())
      else
        match disk.makeFolder? path with
        | .error .notFound =>
            match disk.makeFoldersAt outer with
            | (disk, .ok ()) => afterwards disk
            | failed => failed
        | _ => afterwards disk

/-- Folders are made at a path and at all paths above it, as far as they are missing. -/
def makeFolders (disk : Disk) (access : Access) (path : Path) : Outcome :=
  if access.mayMakeFolder path then
    let attempt := disk.makeFoldersAt (outwards path path.bytes.length)
    ⟨attempt.1, attempt.2.mapError .system⟩
  else
    ⟨disk, .error (.denied path)⟩

/-- The disk with a file at a path, which is empty if it was not there before. -/
def createFile? (disk : Disk) (path : Path) : Except SystemError Disk :=
  match disk.placeOf path with
  | .error cause => .error cause
  | .ok place =>
      if !place.hasName ∨ place.hasSlash then
        .error .isADirectory
      else if named : isName place.last = true then
        match found : disk.node? (place.parent ++ [place.last]) with
        | some .folder => .error .isADirectory
        | some (.file _) => .ok disk
        | none =>
            .ok (disk.put place.parent place.last (.file []) place.inFolder named (by simp [found]))
      else
        .error .nameTooLong

/-- An empty file is created at a path, unless there is a file already. -/
def touch (disk : Disk) (access : Access) (path : Path) : Outcome :=
  if access.mayTouch path then
    match disk.createFile? path with
    | .error cause => ⟨disk, .error (.system cause)⟩
    | .ok touched => ⟨touched, .ok ()⟩
  else
    ⟨disk, .error (.denied path)⟩

/-- The folder in which a path wants a file. -/
def folderAround (path : Path) : Path :=
  match path.parent? with
  | none => ⟨[Path.dot]⟩
  | some parent => if parent.bytes = [] then ⟨[Path.dot]⟩ else parent

/-- A finished temporary file takes the place of whatever file is at a path. -/
def replace (disk : Disk) (path : Path) (content : Bytes) : Except SystemError Disk :=
  match disk.placeOf path with
  | .error .nulInPath => .error .invalidArgument
  | .error cause => .error cause
  | .ok place =>
      if !place.hasName then
        .error .busy
      else if named : isName place.last = true then
        if place.hasSlash then
          .error .notADirectory
        else if free : disk.node? (place.parent ++ [place.last]) ≠ some .folder then
          .ok (disk.put place.parent place.last (.file content) place.inFolder named free)
        else
          .error .isADirectory
      else
        .error .nameTooLong

/-- A temporary file can be made in a folder if the path of such a file leads into it. -/
def makeTemporary (disk : Disk) (folder : Path) : Except SystemError Unit :=
  (disk.placeOf (folder.join temporaryName)).map fun _ => ()

/-- A file gets a text as its content, by way of a temporary file in the same folder. -/
def write (disk : Disk) (access : Access) (path : Path) (text : Text) : Outcome :=
  if access.mayWrite path then
    match disk.makeTemporary (folderAround path) with
    | .error cause => ⟨disk, .error (.noTemporary (folderAround path) cause)⟩
    | .ok () =>
        match disk.replace path (Text.encode text) with
        | .error cause => ⟨disk, .error (.system cause)⟩
        | .ok written => ⟨written, .ok ()⟩
  else
    ⟨disk, .error (.denied path)⟩

end Disk
end Phrasebook
