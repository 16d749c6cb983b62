import Phrasebook.Path
import Phrasebook.Text.Visible

/-!
# Disk errors

The operating system refuses an operation for one of a few reasons, each with a number and a
sentence.  Besides, access to a path may be denied, a walk needs a folder to start from, and a file
is written by way of a temporary file next to it.
-/

namespace Phrasebook
namespace Disk

/-- Why the operating system refuses an operation. -/
inductive SystemError where
  /-- There is nothing at the path. -/
  | notFound
  /-- The device is in use. -/
  | busy
  /-- The path may not be accessed in this way. -/
  | permissionDenied
  /-- There is something at the path already. -/
  | alreadyExists
  /-- A file stands where a folder is needed. -/
  | notADirectory
  /-- A folder stands where a file is needed. -/
  | isADirectory
  /-- The content of a file is not a text. -/
  | invalidData
  /-- An argument makes no sense. -/
  | invalidArgument
  /-- A path or a name in it is longer than it may be. -/
  | nameTooLong
  /-- A path holds the character that ends a path. -/
  | nulInPath
  /-- No folder on the way could be made. -/
  | noTree
  deriving DecidableEq

/-- The sentence of the operating system. -/
def SystemError.message : SystemError → Text
  | notFound => "No such file or directory (os error 2)".toList
  | permissionDenied => "Permission denied (os error 13)".toList
  | busy => "Device or resource busy (os error 16)".toList
  | alreadyExists => "File exists (os error 17)".toList
  | notADirectory => "Not a directory (os error 20)".toList
  | isADirectory => "Is a directory (os error 21)".toList
  | invalidArgument => "Invalid argument (os error 22)".toList
  | nameTooLong => "File name too long (os error 36)".toList
  | nulInPath => "file name contained an unexpected NUL byte".toList
  | invalidData => "stream did not contain valid UTF-8".toList
  | noTree => "failed to create whole tree".toList

/-- Why an operation on a disk fails. -/
inductive Error where
  /-- The operating system refuses. -/
  | system (cause : SystemError)
  /-- Access to the path is denied. -/
  | denied (path : Path)
  /-- A walk was to start at something that is no folder. -/
  | notAFolder (path : Path)
  /-- No temporary file can be made in a folder. -/
  | noTemporary (folder : Path) (cause : SystemError)
  deriving DecidableEq

/-- The name of a temporary file, with its random characters left open. -/
def temporaryName : Text :=
  ".tmpXXXXXX".toList

namespace Error

/-- The sentences that report an error, the outermost first. -/
def sentences : Error → List Text
  | system cause => [cause.message]
  | denied path => ["Permission denied: ".toList ++ path.display]
  | notAFolder path => ["Not a directory: ".toList ++ path.display]
  | noTemporary folder cause =>
      ["Failed to create temp file in ".toList ++ folder.display,
        cause.message ++ " at path ".toList ++
          Text.display (folder.join temporaryName).display]

/-- The outermost sentence. -/
def headline (error : Error) : Text :=
  error.sentences.headD []

/-- All sentences in one. -/
def message (error : Error) : Text :=
  Text.joinWith ": ".toList error.sentences

end Error
end Disk
end Phrasebook
