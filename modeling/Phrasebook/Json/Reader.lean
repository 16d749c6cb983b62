import Phrasebook.Json.Basic
import Phrasebook.Json.Raw

/-!
# Reading JSON

A raw value has a meaning when its code units pair up to characters, its numbers are within range,
and its arrays and objects are nested at most 127 levels deep.
-/

namespace Phrasebook
namespace Json

/-- The code unit is the first one of a pair. -/
def isHighSurrogate (value : Nat) : Bool :=
  0xD800 ≤ value && value < 0xDC00

/-- The code unit is the second one of a pair. -/
def isLowSurrogate (value : Nat) : Bool :=
  0xDC00 ≤ value && value < 0xE000

/-- The text that the parts of a string denote, unless a code unit lacks its partner. -/
def text? : List Piece → Option Text
  | [] => some []
  | .char char :: rest => (text? rest).map (char :: ·)
  | [.codeUnit value] =>
      if isHighSurrogate value ∨ isLowSurrogate value then none else some [Char.ofNat value]
  | .codeUnit value :: next :: rest =>
      if isLowSurrogate value then
        none
      else if isHighSurrogate value then
        match next with
        | .codeUnit low =>
            if isLowSurrogate low then
              (text? rest).map
                (Char.ofNat (0x10000 + (value - 0xD800) * 0x400 + (low - 0xDC00)) :: ·)
            else
              none
        | .char _ => none
      else
        (text? (next :: rest)).map (Char.ofNat value :: ·)

namespace Raw

mutual

/-- The meaning of a raw value, however deeply nested. -/
def meaning? : Raw → Option Json
  | null => some .null
  | bool value => some (.bool value)
  | numeral written => written.number?.map .number
  | string pieces => (text? pieces).map .string
  | array items => (meaningOfItems? items).map .array
  | object members =>
      (meaningOfMembers? members).map fun members => .object (distinctMembers members)

/-- The meanings of items. -/
def meaningOfItems? : List Raw → Option (List Json)
  | [] => some []
  | item :: rest => do
      let item ← item.meaning?
      let rest ← meaningOfItems? rest
      return item :: rest

/-- The meanings of names and values of members. -/
def meaningOfMembers? : List (List Piece × Raw) → Option (List (Text × Json))
  | [] => some []
  | (name, value) :: rest => do
      let name ← text? name
      let value ← value.meaning?
      let rest ← meaningOfMembers? rest
      return (name, value) :: rest

end

end Raw

/-- The greatest depth of nesting that is read. -/
def maxDepth : Nat :=
  127

/-- The value that a text denotes. -/
def read? (text : Text) : Option Json := do
  let raw ← Raw.read? text
  if raw.depth ≤ maxDepth then raw.meaning? else none

end Json
end Phrasebook
