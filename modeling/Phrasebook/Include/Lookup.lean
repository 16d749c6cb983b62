import Phrasebook.Disk.Access
import Phrasebook.Settings

/-!
# Lookup of includes

The template behind an include is looked for in the folder of included templates of each module, in
the order of the names of the modules; hidden folders are passed over.
-/

namespace Phrasebook
namespace Include

open Text

/-- A way to find the template behind the name of an include, on a disk with given access. -/
abbrev Resolver : Type :=
  Disk → Access → Text → Option Path

/-- The path that an included template would have in a module. -/
def candidate (settings : Settings) (name : Text) (module : Path) : Path :=
  ((module.join settings.templateFolder).join settings.includeFolder).join
    (encode (name ++ '.' :: settings.templateExtension))

/-- A module is looked into if the name of its folder is a text and is not hidden. -/
def isVisible (module : Path) : Bool :=
  match module.textName? with
  | none => false
  | some name => !Path.isHiddenName name

/-- The included template in the first module that has it. -/
def find? (settings : Settings) : Resolver :=
  fun disk access name =>
    match disk.list access settings.base with
    | .error _ => none
    | .ok modules =>
        ((modules.filter isVisible).map (candidate settings name)).find? disk.holdsFile

/-- The lookup in a table of names and paths, whatever is on the disk. -/
def ofTable (table : List (Text × Path)) : Resolver :=
  fun _ _ name => Dictionary.lookup name table

end Include
end Phrasebook
