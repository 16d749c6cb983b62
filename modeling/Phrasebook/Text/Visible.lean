import Phrasebook.Text.Basic
import Phrasebook.Text.VisibleRanges

/-!
# Texts on display

A text is displayed between double quotes so that every character can be recognised: control
characters have short escapes, and all other characters that leave no mark of their own are given by
their code points.
-/

namespace Phrasebook
namespace Text

/-- A character leaves a mark of its own. -/
def isVisible (char : Char) : Bool :=
  visibleRanges.any fun (low, high) => low ≤ char.toNat && char.toNat ≤ high

/-- The hexadecimal digits of a natural number. -/
def hexadecimal (number : Nat) : Text :=
  Nat.toDigits 16 number

/-- A character on display. -/
def displayChar (char : Char) : Text :=
  if char = '\x00' then ['\x5c', '0']
  else if char = '\t' then ['\x5c', 't']
  else if char = '\x0d' then ['\x5c', 'r']
  else if char = '\n' then ['\x5c', 'n']
  else if char = '\x5c' ∨ char = '\x22' then ['\x5c', char]
  else if isVisible char then [char]
  else "\\u\x7b".toList ++ hexadecimal char.toNat ++ ['\x7d']

/-- A text on display. -/
def display (text : Text) : Text :=
  '\x22' :: text.flatMap displayChar ++ ['\x22']

end Text
end Phrasebook
