import Phrasebook.Disk.Access
import Phrasebook.Table.Document
import Phrasebook.Table.Format
import Phrasebook.Table.Statements

/-!
# Master tables on a disk

The table of a module lies in the module's folder for languages and is named for its locale.  When
that folder is made, an empty marker is put into it that keeps it out of the class manifest of the
framework.
-/

namespace Phrasebook
namespace Table

/-- The table of a map of entities in a format. -/
def render (format : Format) (locale : Text) (entities : Entity.Map) : Text :=
  match format with
  | .php => Statements.render locale entities
  | .json => Document.render locale entities

/-- The entities in a text of a format. -/
def read (format : Format) (text : Text) : Except Document.Error Entity.Map :=
  match format with
  | .php => .ok (Statements.read text)
  | .json => Document.read text

/-- The folder of the tables of a module. -/
def folderOf (save : Path) (module : Text) : Path :=
  (save.join module).join "lang".toList

/-- The marker in a folder of tables. -/
def markerIn (folder : Path) : Path :=
  folder.join "_manifest_exclude".toList

/-- The path of the table of a module. -/
def pathOf (save : Path) (module locale : Text) (format : Format) : Path :=
  (folderOf save module).join (Text.encode (locale ++ '.' :: format.extension))

/-- Why a table cannot be written. -/
inductive WriteError where
  /-- The folder cannot be made. -/
  | folder (path : Path) (cause : Disk.Error)
  /-- The marker cannot be made. -/
  | marker (path : Path) (cause : Disk.Error)
  /-- The file cannot be written. -/
  | table (path : Path) (cause : Disk.Error)
  deriving DecidableEq

namespace WriteError

/-- What the disk reported. -/
def cause : WriteError → Disk.Error
  | folder _ cause => cause
  | marker _ cause => cause
  | table _ cause => cause

/-- The sentence that tells what was being done. -/
def headline : WriteError → Text
  | folder path _ => "Failed to create directory: ".toList ++ path.display
  | marker path _ => "Failed to create ".toList ++ path.display
  | table path _ =>
      "Cannot write language file! Please check permissions of ".toList ++ path.display

/-- All sentences that report an error, in one. -/
def message (error : WriteError) : Text :=
  Text.joinWith ": ".toList (error.headline :: error.cause.sentences)

end WriteError

/-- A table that was written. -/
structure Written where
  /-- Where it is. -/
  path : Path
  /-- How many entities are in it. -/
  entries : Nat
  /-- The reports on the entities that are not. -/
  skipped : List Entity.Error
  deriving DecidableEq

/-- The disk with a folder for tables and the marker in it, if the folder was not there. -/
def prepareFolder (disk : Disk) (access : Access) (folder : Path) :
    Disk × Except WriteError Unit :=
  if disk.holds folder then
    (disk, .ok ())
  else
    let made := disk.makeFolders access folder
    match made.result with
    | .error cause => (made.disk, .error (.folder folder cause))
    | .ok () =>
        let marked := made.disk.touch access (markerIn folder)
        (marked.disk, marked.result.mapError (.marker (markerIn folder)))

/-- The disk with the table of a module, and what was written. -/
def write
    (disk : Disk)
    (access : Access)
    (save : Path)
    (module locale : Text)
    (format : Format)
    (entities : Entity.Map) :
    Disk × Except WriteError Written :=
  match prepareFolder disk access (folderOf save module) with
  | (disk, .error cause) => (disk, .error cause)
  | (disk, .ok ()) =>
      let path := pathOf save module locale format
      let written := disk.write access path (render format locale entities)
      let reports := skipped entities
      ( written.disk,
        match written.result with
        | .error cause => .error (.table path cause)
        | .ok () => .ok ⟨path, entities.size - reports.length, reports⟩ )

/-- Why a table cannot be read. -/
inductive ReadError where
  /-- The file cannot be read. -/
  | unreadable (path : Path) (cause : Disk.Error)
  /-- The text is no table. -/
  | malformed (path : Path) (cause : Document.Error)

/-- All sentences that report an error, in one. -/
def ReadError.message : ReadError → Text
  | unreadable path cause =>
      Text.joinWith ": ".toList
        (("Failed to read language file: ".toList ++ path.display) :: cause.sentences)
  | malformed path cause =>
      "Failed to parse language file: ".toList ++ path.display ++ ": ".toList ++ cause.message

/-- The entities in the table at a path. -/
def load (disk : Disk) (access : Access) (path : Path) (format : Format) :
    Except ReadError Entity.Map :=
  match disk.readText access path with
  | .error cause => .error (.unreadable path cause)
  | .ok text => (read format text).mapError (.malformed path)

end Table
end Phrasebook
