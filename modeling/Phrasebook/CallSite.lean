import Phrasebook.Text.Blank
import Phrasebook.Text.Quoted
import Phrasebook.Text.Utf8

/-!
# Call sites

A call site is a call of the lookup function as it stands in code or in a template:

    name ( 'key' , "value" , PRIORITY , 'comment' )

Blanks are allowed around parentheses and commas.  The key is a plain literal, value and comment
are escaped literals, and the priority is whatever stands between two commas, or between a comma
and the closing parenthesis.  Priority and comment may be missing.  Where both readings are
possible, the third argument is a priority.

A text is scanned from left to right, and the scan goes on behind each call site that was found.
Positions count the bytes of the UTF-8 encoding.
-/

namespace Phrasebook

open Text

/-- The arguments of one call as they are written, quotes and separators included. -/
structure CallSite where
  /-- The literal of the key. -/
  key : Text
  /-- The literal of the value. -/
  value : Text
  /-- The priority with the comma in front of it and all blanks. -/
  priority : Option Text
  /-- The literal of the comment. -/
  comment : Option Text
  deriving DecidableEq

namespace CallSite

/-- The rest behind a character that may have blanks in front of it. -/
def mark? (mark : Char) (text : Text) : Option Text :=
  match trimStart text with
  | [] => none
  | char :: rest => if char = mark then some rest else none

/-- The literals of key and value, and the rest behind the value. -/
def beginning? (function : Text) (text : Text) : Option (Text × Text × Text) := do
  let rest ← after? function text
  let rest ← mark? '(' rest
  let (key, rest) ← plainLiteral? (trimStart rest)
  let rest ← mark? ',' rest
  let (value, rest) ← escapedLiteral? (trimStart rest)
  return (key, value, rest)

/-- A character that may occur in a priority. -/
def isPriorityChar (char : Char) : Bool :=
  char ≠ ',' && char ≠ ')'

/-- A comma with everything up to the next comma or closing parenthesis, and the rest. -/
def priority? (text : Text) : Option (Text × Text) :=
  (mark? ',' text).map fun rest =>
    (blanks text ++ ',' :: rest.takeWhile isPriorityChar, rest.dropWhile isPriorityChar)

/-- The literal behind a comma, if it is the last argument, and the rest behind the call. -/
def comment? (text : Text) : Option (Text × Text) := do
  let rest ← mark? ',' text
  let (comment, rest) ← escapedLiteral? (trimStart rest)
  let rest ← mark? ')' rest
  return (comment, rest)

/-- The end of a call without a priority. -/
def endWithoutPriority? (text : Text) : Option (Option Text × Text) :=
  match comment? text with
  | some (comment, rest) => some (some comment, rest)
  | none => (mark? ')' text).map fun rest => (none, rest)

/-- Priority and comment, and the rest behind the call. -/
def ending? (text : Text) : Option (Option Text × Option Text × Text) :=
  match priority? text with
  | none => (endWithoutPriority? text).map fun (comment, rest) => (none, comment, rest)
  | some (priority, rest) =>
      match endWithoutPriority? rest with
      | some (comment, rest) => some (some priority, comment, rest)
      | none => (endWithoutPriority? text).map fun (comment, rest) => (none, comment, rest)

/-- The call site at the beginning of a text, and the rest behind it. -/
def read? (function : Text) (text : Text) : Option (CallSite × Text) := do
  let (key, value, rest) ← beginning? function text
  let (priority, comment, rest) ← ending? rest
  return (⟨key, value, priority, comment⟩, rest)

/-- Reading a mark shortens the text. -/
theorem length_mark?
    {mark : Char}
    {text rest : Text}
    (read : mark? mark text = some rest) :
    rest.length < text.length := by
  have shorter := length_trimStart_le text
  unfold mark? at read
  split at read
  · simp at read
  next left =>
    rw [left, List.length_cons] at shorter
    split at read
    · simp only [Option.some.injEq] at read
      subst read
      omega
    · simp at read

/-- The rest behind a plain literal is shorter than the text. -/
theorem length_plainLiteral?
    {text literal rest : Text}
    (read : plainLiteral? text = some (literal, rest)) :
    rest.length ≤ text.length := by
  simp [eq_append_of_plainLiteral? read]

/-- The rest behind an escaped literal is shorter than the text. -/
theorem length_escapedLiteral?
    {text literal rest : Text}
    (read : escapedLiteral? text = some (literal, rest)) :
    rest.length ≤ text.length := by
  simp [eq_append_of_escapedLiteral? read]

/-- Reading the beginning of a call shortens the text. -/
theorem length_beginning?
    {function text key value rest : Text}
    (read : beginning? function text = some (key, value, rest)) :
    rest.length < text.length := by
  simp only [beginning?, Option.bind_eq_bind, Option.bind_eq_some_iff, Option.pure_def,
    Option.some.injEq, Prod.mk.injEq] at read
  obtain ⟨behindName, name, behindParen, paren, ⟨_, behindKey⟩, keyRead, behindComma, comma,
    ⟨_, behindValue⟩, valueRead, -, -, rfl⟩ := read
  have nameLength : behindName.length ≤ text.length := by
    simp [after?_eq_some_iff.mp name]
  have := length_mark? paren
  have := length_plainLiteral? keyRead
  have := length_trimStart_le behindParen
  have := length_mark? comma
  have := length_escapedLiteral? valueRead
  have := length_trimStart_le behindComma
  simp only at *
  omega

/-- Reading the end of a call shortens the text. -/
theorem length_endWithoutPriority?
    {text rest : Text}
    {comment : Option Text}
    (read : endWithoutPriority? text = some (comment, rest)) :
    rest.length < text.length := by
  unfold endWithoutPriority? at read
  split at read
  next literal behind inside =>
    simp only [Option.some.injEq, Prod.mk.injEq] at read
    obtain ⟨-, rfl⟩ := read
    simp only [comment?, Option.bind_eq_bind, Option.bind_eq_some_iff, Option.pure_def,
      Option.some.injEq, Prod.mk.injEq] at inside
    obtain ⟨behindComma, comma, ⟨_, behindComment⟩, commentRead, _, paren, -, rfl⟩ := inside
    have := length_mark? comma
    have := length_escapedLiteral? commentRead
    have := length_trimStart_le behindComma
    have := length_mark? paren
    simp only at *
    omega
  next =>
    obtain ⟨behind, paren, equal⟩ := Option.map_eq_some_iff.mp read
    simp only [Prod.mk.injEq] at equal
    obtain ⟨-, rfl⟩ := equal
    exact length_mark? paren

/-- Reading priority and comment shortens the text. -/
theorem length_ending?
    {text rest : Text}
    {priority comment : Option Text}
    (read : ending? text = some (priority, comment, rest)) :
    rest.length < text.length := by
  have bare :
      ∀ {rest : Text},
        ((endWithoutPriority? text).map fun (comment, rest) => (none, comment, rest)) =
          some (priority, comment, rest) →
        rest.length < text.length := by
    intro rest read
    obtain ⟨⟨_, behind⟩, inside, equal⟩ := Option.map_eq_some_iff.mp read
    simp only [Prod.mk.injEq] at equal
    obtain ⟨-, -, rfl⟩ := equal
    exact length_endWithoutPriority? inside
  unfold ending? at read
  split at read
  · exact bare read
  next token behindToken priorityRead =>
    split at read
    next inside =>
      simp only [Option.some.injEq, Prod.mk.injEq] at read
      obtain ⟨-, -, rfl⟩ := read
      obtain ⟨behindComma, comma, equal⟩ := Option.map_eq_some_iff.mp priorityRead
      simp only [Prod.mk.injEq] at equal
      obtain ⟨-, rfl⟩ := equal
      have parts := congrArg List.length
        (List.takeWhile_append_dropWhile (p := isPriorityChar) (l := behindComma))
      rw [List.length_append] at parts
      have := length_endWithoutPriority? inside
      have := length_mark? comma
      omega
    · exact bare read

/-- A call site takes at least one character. -/
theorem length_read?
    {function text rest : Text}
    {site : CallSite}
    (read : read? function text = some (site, rest)) :
    rest.length < text.length := by
  simp only [read?, Option.bind_eq_bind, Option.bind_eq_some_iff, Option.pure_def,
    Option.some.injEq, Prod.mk.injEq] at read
  obtain ⟨⟨_, _, behindValue⟩, beginning, ⟨_, _, behind⟩, ending, -, rfl⟩ := read
  have := length_beginning? beginning
  have := length_ending? ending
  simp only at *
  omega

/-- A call site together with the bytes of the text that it takes. -/
structure Occurrence where
  /-- What is written there. -/
  site : CallSite
  /-- The position of the first byte. -/
  start : Nat
  /-- The position behind the last byte. -/
  stop : Nat
  deriving DecidableEq

/-- The call sites of a text whose first byte has the given position. -/
def scanFrom
    (function : Text)
    (position : Nat)
    (text : Text) :
    List Occurrence :=
  match _found : read? function text with
  | some (site, rest) =>
      let stop := position + (byteLength text - byteLength rest)
      ⟨site, position, stop⟩ :: scanFrom function stop rest
  | none =>
      match text with
      | [] => []
      | char :: rest => scanFrom function (position + byteLength [char]) rest
termination_by text.length
decreasing_by
  · exact length_read? (by assumption)
  · simp

/-- The call sites of a text from left to right, none inside another. -/
def scan (function : Text) (text : Text) : List Occurrence :=
  scanFrom function 0 text

end CallSite
end Phrasebook
