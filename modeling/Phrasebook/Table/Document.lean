import Phrasebook.Json.Printer
import Phrasebook.Json.Reader
import Phrasebook.Table.Listing
import Phrasebook.Text.Quoted

/-!
# Master tables as JSON documents

A document has one object for the locale, in it one object for each namespace, and in that one
member for each name: the value, or an array of value, priority and perhaps a comment.  Values have
their single quotes unescaped here, and a missing priority is `null`.

The reader takes the entities of all locales.  Arrays may lack priority and comment, and items
behind the comment are not looked at.
-/

namespace Phrasebook
namespace Table
namespace Document

open Text

/-- Why a text is not a master table. -/
inductive Error where
  /-- The text is no JSON, or no object. -/
  | notAnObject
  /-- A locale is no object. -/
  | namespacesExpected
  /-- A namespace is no object. -/
  | entitiesExpected (space : Text)
  /-- An item of an entity is no text. -/
  | textExpected (key : Text) (found : Json)
  /-- An entity is an array without items. -/
  | emptyEntry (key : Text)
  /-- An entity is neither a text nor an array. -/
  | unexpectedEntry (key : Text) (found : Json)

/-- The sentence that reports an error. -/
def Error.message : Error → Text
  | notAnObject => "Master table is not a JSON object".toList
  | namespacesExpected => "Expected an object of namespaces".toList
  | entitiesExpected space => "Expected an object of entities in namespace ".toList ++ space
  | textExpected key found =>
      "Expected a string for ".toList ++ key ++ ", found ".toList ++ found.compact
  | emptyEntry key => "Empty entry for ".toList ++ key
  | unexpectedEntry key found =>
      "Unexpected entry for ".toList ++ key ++ ": ".toList ++ found.compact

/-- The value that stands for a record. -/
def ofRecord (record : Entity.Record) : Json :=
  let value := Json.string (unescapeQuotes record.value)
  match record.priority, record.comment with
  | none, none => value
  | priority, comment =>
      let priority := (priority.map Json.string).getD .null
      .array (value :: priority :: (comment.map Json.string).toList)

/-- The names of each namespace, after one more entity has come in. -/
def addEntity
    (spaces : List (Text × List (Text × Json)))
    (entity : Entity.Key × Entity.Record) :
    List (Text × List (Text × Json)) :=
  let names := (Json.member? entity.1.space spaces).getD []
  Json.setMember entity.1.space (Json.setMember entity.1.name (ofRecord entity.2) names) spaces

/-- The names of each namespace; namespaces and names keep the order of the listing. -/
def grouped (entities : Entity.Map) : List (Text × List (Text × Json)) :=
  (listed entities).foldl addEntity []

/-- The document of a map of entities. -/
def ofMap (locale : Text) (entities : Entity.Map) : Json :=
  .object [(locale, .object ((grouped entities).map fun (space, names) => (space, .object names)))]

/-- The table of a map of entities. -/
def render (locale : Text) (entities : Entity.Map) : Text :=
  (ofMap locale entities).pretty 0 ++ ['\n']

/-- The text that an item of an entity must be. -/
def textOf (key : Text) : Json → Except Error Text
  | .string text => .ok text
  | found => .error (.textExpected key found)

/-- The text that an item of an entity may be, if it is there and not `null`. -/
def optionalTextOf (key : Text) : Option Json → Except Error (Option Text)
  | none => .ok none
  | some .null => .ok none
  | some item => (textOf key item).map some

/-- The record that a value stands for. -/
def recordOf (key : Text) : Json → Except Error Entity.Record
  | .string text => .ok { value := escapeQuotes text }
  | .array [] => .error (.emptyEntry key)
  | .array (first :: rest) => do
      let value ← textOf key first
      let priority ← optionalTextOf key rest[0]?
      let comment ← optionalTextOf key rest[1]?
      return { value := escapeQuotes value, priority, comment }
  | found => .error (.unexpectedEntry key found)

/-- The entity of a name in a namespace. -/
def entityOf (space : Text) (member : Text × Json) : Except Error (Text × Entity.Record) := do
  let key := space ++ '.' :: member.1
  let record ← recordOf key member.2
  return (key, record)

/-- The entities of a namespace. -/
def entitiesOfSpace : Text × Json → Except Error (List (Text × Entity.Record))
  | (space, .object names) => names.mapM (entityOf space)
  | (space, _) => .error (.entitiesExpected space)

/-- The entities of a locale. -/
def entitiesOfLocale : Text × Json → Except Error (List (Text × Entity.Record))
  | (_, .object spaces) => (spaces.mapM entitiesOfSpace).map List.flatten
  | _ => .error .namespacesExpected

/-- The entities that a document holds, of which later ones win. -/
def toMap : Json → Except Error Entity.Map
  | .object locales => do
      let entities ← locales.mapM entitiesOfLocale
      return Dictionary.ofList entities.flatten
  | _ => .error .notAnObject

/-- The entities that a text holds. -/
def read (text : Text) : Except Error Entity.Map :=
  match Json.read? text with
  | none => .error .notAnObject
  | some document => toMap document

end Document
end Table
end Phrasebook
