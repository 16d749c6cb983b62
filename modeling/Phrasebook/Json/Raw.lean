import Phrasebook.Json.Token

/-!
# The grammar of JSON

A raw value is a JSON text without blanks: its shape is known, but strings keep their escapes,
numbers their digits, and objects repeated members.  Raw values are read by a machine that takes
one token at a time and keeps the unfinished arrays and objects on a stack.
-/

namespace Phrasebook
namespace Json

/-- The shape of a JSON text. -/
inductive Raw where
  /-- The word `null`. -/
  | null
  /-- A truth value. -/
  | bool (value : Bool)
  /-- A number by its digits. -/
  | numeral (numeral : Numeral)
  /-- A string by its parts. -/
  | string (pieces : List Piece)
  /-- An array by its items. -/
  | array (items : List Raw)
  /-- An object by its members, repeated ones included. -/
  | object (members : List (List Piece × Raw))

/-- An array or object that is not closed yet. -/
inductive Frame where
  /-- An array with the items so far, the last one first. -/
  | array (items : List Raw)
  /-- An object with the members so far, the last one first. -/
  | object (members : List (List Piece × Raw))
  /-- An object whose next member has this name. -/
  | member (members : List (List Piece × Raw)) (name : List Piece)

/-- What the machine is waiting for, with the unfinished values from the inside out. -/
inductive State where
  /-- A value has to follow. -/
  | beforeValue (stack : List Frame)
  /-- A value has to follow, or the end of the array that was just opened. -/
  | beforeFirstItem (stack : List Frame)
  /-- A name has to follow, or the end of the object that was just opened. -/
  | beforeFirstName (stack : List Frame)
  /-- A name has to follow. -/
  | beforeName (stack : List Frame) (members : List (List Piece × Raw))
  /-- A colon has to follow. -/
  | beforeColon (stack : List Frame) (members : List (List Piece × Raw)) (name : List Piece)
  /-- A value is complete. -/
  | complete (stack : List Frame) (value : Raw)

namespace State

/-- A value may begin with this token. -/
def beginValue? (stack : List Frame) : Token → Option State
  | .null => some (.complete stack .null)
  | .bool value => some (.complete stack (.bool value))
  | .numeral numeral => some (.complete stack (.numeral numeral))
  | .string pieces => some (.complete stack (.string pieces))
  | .openArray => some (.beforeFirstItem stack)
  | .openObject => some (.beforeFirstName stack)
  | _ => none

/-- A complete value may be followed by this token, as the innermost unfinished value tells. -/
def afterValue? (value : Raw) : List Frame → Token → Option State
  | .array items :: stack, .comma => some (.beforeValue (.array (value :: items) :: stack))
  | .array items :: stack, .closeArray =>
      some (.complete stack (.array (value :: items).reverse))
  | .member members name :: stack, .comma => some (.beforeName stack ((name, value) :: members))
  | .member members name :: stack, .closeObject =>
      some (.complete stack (.object ((name, value) :: members).reverse))
  | _, _ => none

/-- The state behind one more token. -/
def step? : State → Token → Option State
  | .beforeValue stack, token => beginValue? stack token
  | .beforeFirstItem stack, .closeArray => some (.complete stack (.array []))
  | .beforeFirstItem stack, token => beginValue? (.array [] :: stack) token
  | .beforeFirstName stack, .closeObject => some (.complete stack (.object []))
  | .beforeFirstName stack, .string name => some (.beforeColon stack [] name)
  | .beforeFirstName _, _ => none
  | .beforeName stack members, .string name => some (.beforeColon stack members name)
  | .beforeName _ _, _ => none
  | .beforeColon stack members name, .colon => some (.beforeValue (.member members name :: stack))
  | .beforeColon _ _ _, _ => none
  | .complete stack value, token => afterValue? value stack token

end State

namespace Raw

/-- The raw value that a sequence of tokens writes. -/
def ofTokens? (tokens : List Token) : Option Raw :=
  match tokens.foldlM State.step? (.beforeValue []) with
  | some (.complete [] value) => some value
  | _ => none

/-- The raw value that a text writes. -/
def read? (text : Text) : Option Raw :=
  (tokens? text).bind ofTokens?

mutual

/-- How deep arrays and objects are nested. -/
def depth : Raw → Nat
  | array items => depthOfItems items + 1
  | object members => depthOfMembers members + 1
  | _ => 0

/-- The greatest depth among items. -/
def depthOfItems : List Raw → Nat
  | [] => 0
  | item :: rest => max item.depth (depthOfItems rest)

/-- The greatest depth among members. -/
def depthOfMembers : List (List Piece × Raw) → Nat
  | [] => 0
  | (_, value) :: rest => max value.depth (depthOfMembers rest)

end

end Raw
end Json
end Phrasebook
