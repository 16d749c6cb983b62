import Phrasebook.Text.Basic

/-!
# Entity keys

The address of an entity is a name inside a namespace.  Written out it is the namespace, a dot and
the name; the namespace may contain dots itself, so the last dot is the one that separates.  A key
as it stands in a call site may lack the namespace, which is then supplied from outside.
-/

namespace Phrasebook
namespace Entity

/-- The address of an entity: a name inside a namespace. -/
structure Key where
  /-- Everything in front of the last dot. -/
  space : Text
  /-- Everything behind the last dot. -/
  name : Text
  deriving DecidableEq

/-- Why a call site cannot become an entity. -/
inductive Error where
  /-- The key names no namespace, and none can be inferred. -/
  | missingNamespace (key : Text)
  /-- The key names a namespace only. -/
  | emptyName (key : Text)
  deriving DecidableEq

namespace Error

/-- The sentence that reports an error. -/
def message : Error → Text
  | missingNamespace key =>
      "entity `".toList ++ key ++ "` has no namespace and none can be inferred".toList
  | emptyName key => "entity `".toList ++ key ++ "` has an empty name".toList

end Error

namespace Key

/-- The key written out. -/
def text (key : Key) : Text :=
  key.space ++ '.' :: key.name

/-- The key that a full text denotes; namespace and name must not be empty. -/
def parse? (full : Text) : Option Key :=
  match Text.splitLast? '.' full with
  | none => none
  | some (space, name) => if space = [] ∨ name = [] then none else some ⟨space, name⟩

/--
The key that a text from a call site denotes.  A namespace in the text itself wins over the
fallback.
-/
def resolve (raw : Text) (fallback : Option Text) : Except Error Key :=
  let parts :=
    match Text.splitLast? '.' raw with
    | some parts => some parts
    | none => fallback.map fun space => (space, raw)
  match parts with
  | none => .error (.missingNamespace raw)
  | some (space, name) =>
      if space = [] then
        .error (.missingNamespace raw)
      else if name = [] then
        .error (.emptyName raw)
      else
        .ok ⟨space, name⟩

/-- Keys are ordered by namespace, then by name. -/
def compare (first second : Key) : Ordering :=
  (compareOfLessAndEq first.space second.space).then (compareOfLessAndEq first.name second.name)

/-- A full text denotes a key only if the key is written that way. -/
theorem text_of_parse?
    {full : Text}
    {key : Key}
    (parsed : parse? full = some key) :
    key.text = full := by
  unfold parse? at parsed
  split at parsed
  · simp at parsed
  next space name split =>
    split at parsed
    · simp at parsed
    · simp only [Option.some.injEq] at parsed
      subst parsed
      exact (Text.splitLast?_eq_some_iff.mp split).1.symm

end Key
end Entity
end Phrasebook
