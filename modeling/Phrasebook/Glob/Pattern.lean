import Phrasebook.Text.Basic

/-!
# Patterns for paths

In a pattern a question mark stands for any character and an asterisk for any characters, slashes
included.  Two asterisks have to make up a whole component and stand for any number of components.
Characters in brackets stand for one of them, or after an exclamation mark for any other one, and
may be given as ranges.  Every other character stands for itself.
-/

namespace Phrasebook
namespace Glob

/-- Some characters: a single one, or those between two of them. -/
inductive Range where
  /-- One character. -/
  | single (char : Char)
  /-- The characters between two bounds, bounds included. -/
  | between (low high : Char)
  deriving DecidableEq

/-- The character is one of the range. -/
def Range.contains (char : Char) : Range → Bool
  | single only => char = only
  | between low high => low ≤ char && char ≤ high

/-- A part of a pattern. -/
inductive Token where
  /-- A character that stands for itself. -/
  | char (char : Char)
  /-- Any character. -/
  | anyChar
  /-- Any characters. -/
  | anyText
  /-- Any number of components with the slashes behind them. -/
  | anyFolders
  /-- A character of the ranges. -/
  | within (ranges : List Range)
  /-- A character of none of the ranges. -/
  | without (ranges : List Range)
  deriving DecidableEq

/-- What is wrong with a pattern. -/
inductive Fault where
  /-- More than two asterisks follow each other. -/
  | wildcards
  /-- Two asterisks do not make up a component. -/
  | recursiveWildcards
  /-- Brackets are not closed or hold nothing. -/
  | range
  deriving DecidableEq

/-- A fault and the number of characters in front of it. -/
structure Error where
  /-- The number of characters in front. -/
  position : Nat
  /-- What is wrong there. -/
  fault : Fault
  deriving DecidableEq

/-- The sentence that names a fault. -/
def Fault.message : Fault → Text
  | wildcards => "wildcards are either regular `*` or recursive `**`".toList
  | recursiveWildcards => "recursive wildcards must form a single path component".toList
  | range => "invalid range pattern".toList

/-- The sentence that reports an error. -/
def Error.message (error : Error) : Text :=
  "Pattern syntax error near position ".toList ++ Text.ofNat error.position ++ ": ".toList ++
    error.fault.message

/-- The ranges that the characters between brackets give. -/
def ranges : Text → List Range
  | low :: '-' :: high :: rest => .between low high :: ranges rest
  | char :: rest => .single char :: ranges rest
  | [] => []

/-- The first character between brackets, the others, and the rest behind the brackets. -/
def bracketed? : Text → Option (Text × Text)
  | [] => none
  | first :: rest =>
      match rest.dropWhile (· ≠ ']') with
      | [] => none
      | _ :: behind => some (first :: rest.takeWhile (· ≠ ']'), behind)

/-- The token in the brackets that were just opened, and the rest behind them. -/
def choice? : Text → Option (Token × Text)
  | '!' :: rest =>
      (bracketed? rest).map fun (chars, behind) => (.without (ranges chars), behind)
  | text => (bracketed? text).map fun (chars, behind) => (.within (ranges chars), behind)

/-- The tokens with two asterisks behind them; these are not repeated but at the beginning. -/
def addFolders (before : List Token) : List Token :=
  if 1 < before.length ∧ before.head? = some .anyFolders then before else .anyFolders :: before

/-- What is behind brackets is shorter than the text. -/
theorem length_bracketed?
    {text chars rest : Text}
    (read : bracketed? text = some (chars, rest)) :
    rest.length < text.length := by
  cases text with
  | nil => simp [bracketed?] at read
  | cons first text =>
      simp only [bracketed?] at read
      have whole :=
        congrArg List.length (List.takeWhile_append_dropWhile (p := (· ≠ ']')) (l := text))
      split at read
      · simp at read
      next left =>
        simp only [Option.some.injEq, Prod.mk.injEq] at read
        obtain ⟨-, rfl⟩ := read
        rw [left] at whole
        simp only [List.length_append, List.length_cons] at whole ⊢
        omega

/-- What is behind brackets is shorter than the text. -/
theorem length_choice?
    {text rest : Text}
    {token : Token}
    (read : choice? text = some (token, rest)) :
    rest.length < text.length := by
  unfold choice? at read
  split at read
  · obtain ⟨⟨_, _⟩, inside, equal⟩ := Option.map_eq_some_iff.mp read
    simp only [Prod.mk.injEq] at equal
    obtain ⟨-, rfl⟩ := equal
    have := length_bracketed? inside
    simp only [List.length_cons]
    omega
  · obtain ⟨⟨_, _⟩, inside, equal⟩ := Option.map_eq_some_iff.mp read
    simp only [Prod.mk.injEq] at equal
    obtain ⟨-, rfl⟩ := equal
    exact length_bracketed? inside

/-- What is behind asterisks is no longer than the text. -/
theorem length_dropStars (text : Text) : (text.dropWhile (· = '*')).length ≤ text.length := by
  have whole :=
    congrArg List.length (List.takeWhile_append_dropWhile (p := (· = '*')) (l := text))
  rw [List.length_append] at whole
  omega

/--
The tokens of the rest of a pattern.  The position counts the characters in front of the rest, and
the tokens in front of it come last first.
-/
def tokensFrom
    (position : Nat)
    (previous : Option Char)
    (before : List Token)
    (text : Text) :
    Except Error (List Token) :=
  match text with
  | [] => .ok before.reverse
  | char :: rest =>
      if char = '?' then
        tokensFrom (position + 1) (some char) (.anyChar :: before) rest
      else if char = '*' then
        let stars := (rest.takeWhile (· = '*')).length + 1
        if 2 < stars then
          .error ⟨position + 2, .wildcards⟩
        else if stars = 1 then
          tokensFrom (position + 1) (some char) (.anyText :: before) rest
        else if previous ≠ none ∧ previous ≠ some '/' then
          .error ⟨position - 1, .recursiveWildcards⟩
        else
          match _left : rest.dropWhile (· = '*') with
          | [] => .ok (addFolders before).reverse
          | next :: behind =>
              if next = '/' then
                tokensFrom (position + 3) (some next) (addFolders before) behind
              else
                .error ⟨position + 2, .recursiveWildcards⟩
      else if char = '[' then
        match _read : choice? rest with
        | none => .error ⟨position, .range⟩
        | some (token, behind) =>
            let taken := rest.length - behind.length + 1
            tokensFrom (position + taken) (some ']') (token :: before) behind
      else
        tokensFrom (position + 1) (some char) (.char char :: before) rest
termination_by text.length
decreasing_by
  · simp
  · simp
  · have shorter := length_dropStars rest
    rw [_left, List.length_cons] at shorter
    simp only [List.length_cons]
    omega
  · have := length_choice? _read
    simp only [List.length_cons]
    omega
  · simp

/-- The tokens of a pattern. -/
def parse (pattern : Text) : Except Error (List Token) :=
  tokensFrom 0 none [] pattern

end Glob
end Phrasebook
