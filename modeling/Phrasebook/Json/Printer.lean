import Phrasebook.Json.Basic

/-!
# Printing JSON

A value is printed compactly, without any blanks, or laid out with one item or member on a line and
two blanks for each level.  In strings the quote, the backslash and the control characters below
U+0020 are escaped and everything else stands for itself.
-/

namespace Phrasebook
namespace Json

/-- The small hexadecimal digit of a value below sixteen. -/
def hexDigit (value : Nat) : Char :=
  if value < 10 then Char.ofNat (48 + value) else Char.ofNat (87 + value)

/-- A character the way it is written in a string. -/
def escape (char : Char) : Text :=
  if char = '\x22' then ['\x5c', '\x22']
  else if char = '\x5c' then ['\x5c', '\x5c']
  else if char = '\x08' then ['\x5c', 'b']
  else if char = '\x0c' then ['\x5c', 'f']
  else if char = '\n' then ['\x5c', 'n']
  else if char = '\x0d' then ['\x5c', 'r']
  else if char = '\t' then ['\x5c', 't']
  else if char.toNat < 0x20 then
    ['\x5c', 'u', '0', '0', hexDigit (char.toNat / 16), hexDigit (char.toNat % 16)]
  else [char]

/-- A text as a string. -/
def quote (text : Text) : Text :=
  '\x22' :: text.flatMap escape ++ ['\x22']

mutual

/-- The text of a value without blanks. -/
def compact : Json → Text
  | null => "null".toList
  | bool true => "true".toList
  | bool false => "false".toList
  | number value => value.text
  | string text => quote text
  | array items => '[' :: compactItems items ++ [']']
  | object members => '\x7b' :: compactMembers members ++ ['\x7d']

/-- The texts of items with commas between them. -/
def compactItems : List Json → Text
  | [] => []
  | [last] => last.compact
  | item :: next :: rest => item.compact ++ ',' :: compactItems (next :: rest)

/-- The texts of members with commas between them. -/
def compactMembers : List (Text × Json) → Text
  | [] => []
  | [(name, last)] => quote name ++ ':' :: last.compact
  | (name, value) :: next :: rest =>
      quote name ++ ':' :: (value.compact ++ ',' :: compactMembers (next :: rest))

end

/-- A new line at a level of nesting. -/
def newLine (level : Nat) : Text :=
  '\n' :: List.replicate (2 * level) ' '

mutual

/-- The text of a value at a level of nesting, one item or member on a line. -/
def pretty (level : Nat) : Json → Text
  | null => "null".toList
  | bool true => "true".toList
  | bool false => "false".toList
  | number value => value.text
  | string text => quote text
  | array [] => ['[', ']']
  | array (item :: rest) =>
      '[' :: prettyItems (level + 1) (item :: rest) ++ newLine level ++ [']']
  | object [] => ['\x7b', '\x7d']
  | object (member :: rest) =>
      '\x7b' :: prettyMembers (level + 1) (member :: rest) ++ newLine level ++ ['\x7d']

/-- The texts of items, each on a line of its own. -/
def prettyItems (level : Nat) : List Json → Text
  | [] => []
  | [last] => newLine level ++ pretty level last
  | item :: next :: rest =>
      newLine level ++ pretty level item ++ ',' :: prettyItems level (next :: rest)

/-- The texts of members, each on a line of its own. -/
def prettyMembers (level : Nat) : List (Text × Json) → Text
  | [] => []
  | [(name, last)] => newLine level ++ quote name ++ ": ".toList ++ pretty level last
  | (name, value) :: next :: rest =>
      newLine level ++ quote name ++ ": ".toList ++ pretty level value ++
        ',' :: prettyMembers level (next :: rest)

end

end Json
end Phrasebook
