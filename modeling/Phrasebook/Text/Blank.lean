import Phrasebook.Text.Basic

/-!
# Blanks

A blank is a character with the Unicode property `White_Space`.  The module cuts blanks off the
ends of a text and splits a text behind its leading blanks.
-/

namespace Phrasebook
namespace Text

/-- The code points with the Unicode property `White_Space`, as closed ranges. -/
def blankRanges : List (Nat × Nat) :=
  [(0x9, 0xD), (0x20, 0x20), (0x85, 0x85), (0xA0, 0xA0), (0x1680, 0x1680), (0x2000, 0x200A),
    (0x2028, 0x2029), (0x202F, 0x202F), (0x205F, 0x205F), (0x3000, 0x3000)]

/-- A character is blank when its code point lies in one of the ranges. -/
def isBlank (char : Char) : Bool :=
  blankRanges.any fun (low, high) => low ≤ char.toNat && char.toNat ≤ high

/-- The leading blanks of a text. -/
def blanks (text : Text) : Text :=
  text.takeWhile isBlank

/-- The text behind its leading blanks. -/
def trimStart (text : Text) : Text :=
  text.dropWhile isBlank

/-- The text in front of its trailing blanks. -/
def trimEnd (text : Text) : Text :=
  (trimStart text.reverse).reverse

/-- The text without the blanks at its two ends. -/
def trim (text : Text) : Text :=
  trimEnd (trimStart text)

/-- A text without any other character than blanks. -/
def isAllBlank (text : Text) : Bool :=
  text.all isBlank

/-- The leading blanks and the rest make up the text. -/
@[simp]
theorem blanks_append_trimStart (text : Text) : blanks text ++ trimStart text = text :=
  List.takeWhile_append_dropWhile

/-- Blanks only are cut off. -/
theorem blanks_all (text : Text) : ∀ char ∈ blanks text, isBlank char = true :=
  List.all_eq_true.mp List.all_takeWhile

/-- What is left after cutting does not begin with a blank. -/
theorem trimStart_head
    {text rest : Text}
    {char : Char}
    (left : trimStart text = char :: rest) :
    isBlank char = false := by
  induction text with
  | nil => simp [trimStart] at left
  | cons head tail ih =>
      unfold trimStart at left ih
      rw [List.dropWhile_cons] at left
      split at left
      · exact ih left
      · next visible =>
          injection left with same
          subst same
          simpa using visible

/-- Cutting the front never makes a text longer. -/
theorem length_trimStart_le (text : Text) : (trimStart text).length ≤ text.length := by
  have parts := congrArg List.length (blanks_append_trimStart text)
  rw [List.length_append] at parts
  omega

end Text
end Phrasebook
