import Phrasebook.CommandLine

/-!
# The program

The program copies the parts of the file system that a command can touch into a disk, lets the
command line do its work there, and carries the changes back.  Those parts are the settings file,
the folder of the modules and the folder for the tables.
-/

namespace Phrasebook
namespace Program

open CommandLine

/-- The path of a location in the file system. -/
def pathOf (location : Location) : String :=
  String.ofList (Path.display ⟨Path.slash :: Text.joinWith [Path.slash] location⟩)

/-- What the file system holds at a location, if it can be read. -/
def fetch? (location : Location) : IO (Option Node) := do
  try
    let path ← IO.FS.realPath (pathOf location)
    if ← path.isDir then
      return some .folder
    else
      let content ← IO.FS.readBinFile path
      return some (.file content.toList)
  catch _ =>
    return none

/-- A disk with what the file system holds at a location and below. -/
partial def copyBelow (disk : Disk) (parent : Location) (name : Bytes) : IO Disk := do
  let location := parent ++ [name]
  match ← fetch? location with
  | none => return disk
  | some node =>
      let mut disk := disk.graft parent name node
      if node = .folder then
        let path ← IO.FS.realPath (pathOf location)
        for item in ← path.readDir do
          disk ← copyBelow disk location (Text.encode item.fileName.toList)
      return disk

/-- A disk with the nodes on the way to a location, and with everything at and below it. -/
def copyAlong (disk : Disk) (location : Location) : IO Disk := do
  let mut disk := disk
  let mut parent : Location := []
  for name in location.dropLast do
    match ← fetch? (parent ++ [name]) with
    | none => return disk
    | some node => disk := disk.graft parent name node
    parent := parent ++ [name]
  match location.getLast? with
  | none => return disk
  | some name => copyBelow disk parent name

/-- The location that a path leads to from a location, if its pieces are short enough. -/
def locate? (start : Location) (path : Path) : Option Location :=
  (Text.splitAt Path.slash path.bytes).foldlM
    (fun location piece => (Disk.step location piece).toOption)
    start

/-- A disk with everything that paths lead to. -/
def copyPaths (disk : Disk) (paths : List Path) : IO Disk :=
  paths.foldlM
    (fun disk path =>
      match locate? (disk.startOf path) path with
      | none => return disk
      | some location => copyAlong disk location)
    disk

/-- The empty disk with the working folder of the program. -/
def workingDisk : IO Disk := do
  let here := Path.ofText (← IO.currentDir).toString.toList
  let location := (locate? [] here).getD []
  let mut disk := Disk.blank
  let mut parent : Location := []
  for name in location do
    disk := disk.graft parent name .folder
    parent := parent ++ [name]
  return disk.enter location

/-- The disk that a request works on. -/
def diskFor (request : Option Request) : IO Disk := do
  let disk ← workingDisk
  match request with
  | some (.collect front behind) =>
      let config := ((eitherValue? front behind .config).map Path.ofText).getD Settings.defaultPath
      let disk ← copyPaths disk [config]
      match prepare disk front behind with
      | .error _ => return disk
      | .ok (settings, _) => copyPaths disk [settings.base, settings.saveFolder]
  | _ => return disk

/-- A node that was changed is carried back to the file system. -/
def carryBack (location : Location) (node : Node) : IO Unit :=
  match node with
  | .folder => IO.FS.createDirAll (pathOf location)
  | .file content => do
      let path := pathOf location
      let temporary := path ++ ".tmp"
      IO.FS.writeBinFile temporary ⟨content.toArray⟩
      IO.FS.rename temporary path

/-- The program runs with arguments and returns its exit code. -/
def run (arguments : List Text) : IO UInt32 := do
  let disk ← diskFor (request? [] arguments)
  let execution := execute disk arguments
  for (location, node) in execution.disk.changesSince disk do
    carryBack location node
  (← IO.getStdout).putStr (String.ofList execution.output)
  (← IO.getStderr).putStr (String.ofList execution.complaint)
  return execution.exitCode.toUInt32

end Program
end Phrasebook

/-- The program takes its arguments from the command line. -/
def main (arguments : List String) : IO UInt32 :=
  Phrasebook.Program.run (arguments.map String.toList)
