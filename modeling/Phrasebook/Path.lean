import Phrasebook.Text.Utf8

/-!
# Paths

A path is a sequence of bytes in which slashes separate pieces.  Some pieces mean nothing: an empty
one, and a single dot that is not the first piece.  The others are the components of the path, and
two paths are alike when they have the same components.  Joining, parents and relative paths keep
the bytes as they were written.

The bytes of a path need not encode a text.  Where a path is shown, invalid parts of it are
replaced; where a name has to be a text, one that is none counts for nothing.
-/

namespace Phrasebook

open Text

/-- A path as it is written. -/
structure Path where
  /-- The bytes of the path. -/
  bytes : Bytes
  deriving DecidableEq

/-- A step that a path takes. -/
inductive Component where
  /-- The slash at the beginning of an absolute path. -/
  | root
  /-- A single dot at the beginning of a path. -/
  | here
  /-- Two dots. -/
  | up
  /-- The name of a file or folder. -/
  | name (name : Bytes)
  deriving DecidableEq

/-- A piece of a path, with the component that it means if it means one. -/
abbrev PathPart : Type :=
  Bytes × Option Component

namespace Path

/-- The byte that separates pieces. -/
abbrev slash : UInt8 :=
  0x2F

/-- The byte of a dot. -/
abbrev dot : UInt8 :=
  0x2E

/-- The path that a text writes. -/
def ofText (text : Text) : Path :=
  ⟨encode text⟩

/-- A path as it is shown. -/
def display (path : Path) : Text :=
  decodeLossy path.bytes

/-- The meaning of a piece that is not the first one. -/
def innerComponent? (piece : Bytes) : Option Component :=
  if piece = [] ∨ piece = [dot] then none
  else if piece = [dot, dot] then some .up
  else some (.name piece)

/-- The meaning of the first piece; it is the root if nothing stands before the first slash. -/
def firstComponent? (piece : Bytes) (rest : List Bytes) : Option Component :=
  if piece = [] then (if rest = [] then none else some .root)
  else if piece = [dot] then some .here
  else innerComponent? piece

/-- The pieces of a path with their meanings. -/
def parts (path : Path) : List PathPart :=
  match splitAt slash path.bytes with
  | [] => []
  | first :: rest =>
      (first, firstComponent? first rest) :: rest.map fun piece => (piece, innerComponent? piece)

/-- The components of a path. -/
def components (path : Path) : List Component :=
  path.parts.filterMap Prod.snd

/-- The path that pieces make up. -/
def ofParts : List PathPart → Path
  | [(_, some .root)] => ⟨[slash]⟩
  | parts => ⟨joinWith [slash] (parts.map Prod.fst)⟩

/-- The pieces without those in front that mean nothing. -/
def trimFront (parts : List PathPart) : List PathPart :=
  parts.dropWhile fun part => part.2.isNone

/-- The pieces without those behind that mean nothing. -/
def trimBack (parts : List PathPart) : List PathPart :=
  (trimFront parts.reverse).reverse

/-- A path that begins with a slash is absolute. -/
def isAbsolute (path : Path) : Bool :=
  path.bytes.head? = some slash

/-- A path below another one; an absolute one stays what it is. -/
def join (base : Path) (child : Bytes) : Path :=
  if child.head? = some slash ∨ base.bytes = [] then
    ⟨child⟩
  else if base.bytes.getLast? = some slash then
    ⟨base.bytes ++ child⟩
  else
    ⟨base.bytes ++ slash :: child⟩

/-- The path without its last component, unless that is the root. -/
def parent? (path : Path) : Option Path :=
  match trimFront path.parts.reverse with
  | [] => none
  | (_, some .root) :: _ => none
  | _ :: rest => some (ofParts (trimFront rest).reverse)

/-- The last component, if it is a name. -/
def fileName? (path : Path) : Option Bytes :=
  match path.components.getLast? with
  | some (.name name) => some name
  | _ => none

/-- What is behind the last dot of a name, if something is in front of it. -/
def extensionOfName? (name : Bytes) : Option Bytes :=
  match splitLast? dot name with
  | some (_ :: _, extension) => some extension
  | _ => none

/-- The suffix of the name of a file. -/
def extension? (path : Path) : Option Bytes :=
  path.fileName?.bind extensionOfName?

/-- The pieces behind given components, if those come first. -/
def dropComponents? : List Component → List PathPart → Option (List PathPart)
  | [], parts => some parts
  | _ :: _, [] => none
  | expected :: components, (_, none) :: parts => dropComponents? (expected :: components) parts
  | expected :: components, (_, some component) :: parts =>
      if component = expected then dropComponents? components parts else none

/-- The path from a base to a path at or below it. -/
def relativeTo? (base path : Path) : Option Path :=
  (dropComponents? base.components path.parts).map fun parts =>
    ofParts (trimBack (trimFront parts))

/-- A path at or below another one begins with its components. -/
def isWithin (path base : Path) : Bool :=
  base.components.isPrefixOf path.components

/-- The last component, if it is a name and a text. -/
def textName? (path : Path) : Option Text :=
  path.fileName?.bind decode?

/-- The suffix of the name of a file, if it is a text. -/
def textExtension? (path : Path) : Option Text :=
  path.extension?.bind decode?

/-- The names of hidden files and folders begin with a dot. -/
def isHiddenName (name : Text) : Bool :=
  name.head? = some '.'

/-- A file or folder is hidden by its name, unless that is no text. -/
def isHidden (name : Bytes) : Bool :=
  match decode? name with
  | none => false
  | some name => isHiddenName name

end Path
end Phrasebook
