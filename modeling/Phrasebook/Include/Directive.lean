import Phrasebook.Text.Basic

/-!
# Include directives

A template includes another one by `<% include Name %>`, with one or more spaces around the name
and nothing else.  A directive has its only opening bracket at the front, so none begins inside
another, and every position of a text can be tried on its own.
-/

namespace Phrasebook
namespace Include

/-- Letters, digits and underscores of ASCII make up the names of includes. -/
def isNameChar (char : Char) : Bool :=
  char.isAlphanum || char = '_'

/-- The rest behind at least one space. -/
def spaces? : Text → Option Text
  | ' ' :: rest => some (rest.dropWhile (· = ' '))
  | _ => none

/-- The name in the directive at the beginning of a text. -/
def directive? (text : Text) : Option Text := do
  let rest ← Text.after? "<% include".toList text
  let rest ← spaces? rest
  let name := rest.takeWhile isNameChar
  let rest ← spaces? (rest.dropWhile isNameChar)
  let _ ← Text.after? "%>".toList rest
  if name = [] then none else some name

/-- The names in the directives of a text, in their order. -/
def names : Text → List Text
  | [] => []
  | char :: rest => (directive? (char :: rest)).toList ++ names rest

/-- An empty text includes nothing. -/
@[simp]
theorem names_nil : names [] = [] :=
  rfl

end Include
end Phrasebook
