import Phrasebook.Json.Number

/-!
# JSON values

A value of JSON: a word, a number, a text, an array or an object.  The members of an object keep
their order, and each name occurs once.
-/

namespace Phrasebook

/-- A value of JSON. -/
inductive Json where
  /-- The word `null`. -/
  | null
  /-- A truth value. -/
  | bool (value : Bool)
  /-- A number. -/
  | number (number : Json.Number)
  /-- A text. -/
  | string (text : Text)
  /-- An array of values. -/
  | array (items : List Json)
  /-- An object with named members. -/
  | object (members : List (Text × Json))

namespace Json

/-- A member is added at the end, or takes the place of the one with the same name. -/
def setMember {Value : Type} (name : Text) (value : Value) :
    List (Text × Value) → List (Text × Value)
  | [] => [(name, value)]
  | (other, old) :: rest =>
      if name = other then
        (name, value) :: rest
      else
        (other, old) :: setMember name value rest

/-- Members without repetitions: a repeated one has its first place and its last value. -/
def distinctMembers {Value : Type} (members : List (Text × Value)) : List (Text × Value) :=
  members.foldl (fun distinct member => setMember member.1 member.2 distinct) []

/-- The member of a name. -/
def member? {Value : Type} (name : Text) : List (Text × Value) → Option Value
  | [] => none
  | (other, value) :: rest => if name = other then some value else member? name rest

end Json
end Phrasebook
