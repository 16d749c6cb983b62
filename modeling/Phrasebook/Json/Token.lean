import Phrasebook.Json.Number

/-!
# Tokens of JSON

A JSON text is a sequence of brackets, separators, the three words, numerals and strings, with
blanks between them.  A string token keeps its escapes of code units, so that a text that is well
formed but denotes no characters is still a token.
-/

namespace Phrasebook
namespace Json

/-- A part of a string: a character, or a UTF-16 code unit by its number. -/
inductive Piece where
  /-- A character, written as it is or by a short escape. -/
  | char (char : Char)
  /-- A code unit written with four hexadecimal digits. -/
  | codeUnit (value : Nat)
  deriving DecidableEq

/-- The smallest parts of a JSON text. -/
inductive Token where
  /-- An opening brace. -/
  | openObject
  /-- A closing brace. -/
  | closeObject
  /-- An opening bracket. -/
  | openArray
  /-- A closing bracket. -/
  | closeArray
  /-- A colon. -/
  | colon
  /-- A comma. -/
  | comma
  /-- The word `null`. -/
  | null
  /-- The word `true` or `false`. -/
  | bool (value : Bool)
  /-- A numeral. -/
  | numeral (numeral : Numeral)
  /-- A string. -/
  | string (pieces : List Piece)
  deriving DecidableEq

/-- The four characters that may stand between tokens. -/
def isSpace (char : Char) : Bool :=
  char = ' ' || char = '\t' || char = '\n' || char = '\x0d'

/-- The value of a decimal digit. -/
def digit? (char : Char) : Option Nat :=
  if char.isDigit then some (char.toNat - 48) else none

/-- The value of a hexadecimal digit, small or capital. -/
def hexDigit? (char : Char) : Option Nat :=
  if char.isDigit then some (char.toNat - 48)
  else if 'a' ≤ char ∧ char ≤ 'f' then some (char.toNat - 87)
  else if 'A' ≤ char ∧ char ≤ 'F' then some (char.toNat - 55)
  else none

/-- The leading decimal digits of a text, and the rest. -/
def digits : Text → List Nat × Text
  | [] => ([], [])
  | char :: rest =>
      match digit? char with
      | none => ([], char :: rest)
      | some value =>
          let read := digits rest
          (value :: read.1, read.2)

/-- The leading decimal digits of a text, at least one, and the rest. -/
def someDigits? (text : Text) : Option (List Nat × Text) :=
  match digits text with
  | ([], _) => none
  | read => some read

/-- The digits in front of the point; a leading zero stands alone. -/
def whole? : Text → Option (List Nat × Text)
  | '0' :: rest => some ([0], rest)
  | text => someDigits? text

/-- The digits behind a point, if there is one. -/
def fraction? : Text → Option (List Nat × Text)
  | '.' :: rest => someDigits? rest
  | text => some ([], text)

/-- A sign is dropped, and whether it was a minus is told. -/
def exponentSign : Text → Bool × Text
  | '-' :: rest => (true, rest)
  | '+' :: rest => (false, rest)
  | text => (false, text)

/-- The exponent, if there is one. -/
def exponent? : Text → Option (Option (Bool × List Nat) × Text)
  | [] => some (none, [])
  | char :: rest =>
      if char = 'e' ∨ char = 'E' then
        let sign := exponentSign rest
        (someDigits? sign.2).map fun read => (some (sign.1, read.1), read.2)
      else
        some (none, char :: rest)

/-- The numeral at the beginning of a text, behind its sign. -/
def unsigned? (isNegative : Bool) (text : Text) : Option (Numeral × Text) := do
  let (whole, rest) ← whole? text
  let (fraction, rest) ← fraction? rest
  let (exponent, rest) ← exponent? rest
  return (⟨isNegative, whole, fraction, exponent⟩, rest)

/-- The numeral at the beginning of a text, and the rest. -/
def numeral? : Text → Option (Numeral × Text)
  | '-' :: rest => unsigned? true rest
  | text => unsigned? false text

/-- The character that a short escape stands for. -/
def shortEscape? (char : Char) : Option Char :=
  if char = '\x22' ∨ char = '\x5c' ∨ char = '/' then some char
  else if char = 'b' then some '\x08'
  else if char = 'f' then some '\x0c'
  else if char = 'n' then some '\n'
  else if char = 'r' then some '\x0d'
  else if char = 't' then some '\t'
  else none

/-- A part of a string in front of the parts read behind it. -/
def consPiece (piece : Piece) : Option (List Piece × Text) → Option (List Piece × Text)
  | none => none
  | some (pieces, rest) => some (piece :: pieces, rest)

/-- The parts of a string up to its closing quote, and the rest behind the quote. -/
def pieces? : Text → Option (List Piece × Text)
  | [] => none
  | char :: rest =>
      if char = '\x22' then
        some ([], rest)
      else if char = '\x5c' then
        match rest with
        | 'u' :: first :: second :: third :: fourth :: rest => do
            let first ← hexDigit? first
            let second ← hexDigit? second
            let third ← hexDigit? third
            let fourth ← hexDigit? fourth
            let value := ((first * 16 + second) * 16 + third) * 16 + fourth
            consPiece (.codeUnit value) (pieces? rest)
        | escape :: rest => do
            let char ← shortEscape? escape
            consPiece (.char char) (pieces? rest)
        | [] => none
      else if char.toNat < 0x20 then
        none
      else
        consPiece (.char char) (pieces? rest)

/-- The token at the beginning of a text, and the rest. -/
def token? : Text → Option (Token × Text)
  | [] => none
  | '\x7b' :: rest => some (.openObject, rest)
  | '\x7d' :: rest => some (.closeObject, rest)
  | '[' :: rest => some (.openArray, rest)
  | ']' :: rest => some (.closeArray, rest)
  | ':' :: rest => some (.colon, rest)
  | ',' :: rest => some (.comma, rest)
  | '\x22' :: rest => (pieces? rest).map fun (pieces, behind) => (.string pieces, behind)
  | 'n' :: rest => (Text.after? "ull".toList rest).map fun behind => (.null, behind)
  | 't' :: rest => (Text.after? "rue".toList rest).map fun behind => (.bool true, behind)
  | 'f' :: rest => (Text.after? "alse".toList rest).map fun behind => (.bool false, behind)
  | text => (numeral? text).map fun (numeral, behind) => (.numeral numeral, behind)

/-- The digits of a text and the rest are no longer than the text. -/
theorem length_digits (text : Text) :
    (digits text).1.length + (digits text).2.length = text.length := by
  induction text with
  | nil => rfl
  | cons char rest ih =>
      unfold digits
      split
      · simp
      · simp only [List.length_cons]
        omega

/-- The rest behind at least one digit is shorter than the text. -/
theorem length_someDigits?
    {text rest : Text}
    {values : List Nat}
    (read : someDigits? text = some (values, rest)) :
    rest.length < text.length := by
  have whole := length_digits text
  unfold someDigits? at read
  split at read
  · simp at read
  next nonempty =>
    simp only [Option.some.injEq] at read
    cases values with
    | nil => exact absurd read (nonempty rest)
    | cons value values =>
        simp only [read, List.length_cons] at whole
        omega

/-- The rest behind the digits in front of a point is shorter than the text. -/
theorem length_whole?
    {text rest : Text}
    {values : List Nat}
    (read : whole? text = some (values, rest)) :
    rest.length < text.length := by
  unfold whole? at read
  split at read
  · simp only [Option.some.injEq, Prod.mk.injEq] at read
    simp [← read.2]
  · exact length_someDigits? read

/-- The rest behind a fraction is no longer than the text. -/
theorem length_fraction?
    {text rest : Text}
    {values : List Nat}
    (read : fraction? text = some (values, rest)) :
    rest.length ≤ text.length := by
  unfold fraction? at read
  split at read
  · have := length_someDigits? read
    simp only [List.length_cons]
    omega
  · simp only [Option.some.injEq, Prod.mk.injEq] at read
    simp [← read.2]

/-- The rest behind a sign is no longer than the text. -/
theorem length_exponentSign (text : Text) : (exponentSign text).2.length ≤ text.length := by
  unfold exponentSign
  split <;> simp

/-- The rest behind an exponent is no longer than the text. -/
theorem length_exponent?
    {text rest : Text}
    {exponent : Option (Bool × List Nat)}
    (read : exponent? text = some (exponent, rest)) :
    rest.length ≤ text.length := by
  cases text with
  | nil =>
      simp only [exponent?, Option.some.injEq, Prod.mk.injEq] at read
      simp [← read.2]
  | cons char tail =>
      simp only [exponent?] at read
      split at read
      · obtain ⟨⟨_, _⟩, inside, equal⟩ := Option.map_eq_some_iff.mp read
        simp only [Prod.mk.injEq] at equal
        obtain ⟨-, rfl⟩ := equal
        have shorter := length_someDigits? inside
        have sign := length_exponentSign tail
        simp only [List.length_cons]
        omega
      · simp only [Option.some.injEq, Prod.mk.injEq] at read
        simp [← read.2]

/-- The rest behind a numeral is shorter than the text. -/
theorem length_unsigned?
    {isNegative : Bool}
    {text rest : Text}
    {numeral : Numeral}
    (read : unsigned? isNegative text = some (numeral, rest)) :
    rest.length < text.length := by
  simp only [unsigned?, Option.bind_eq_bind, Option.bind_eq_some_iff, Option.pure_def,
    Option.some.injEq, Prod.mk.injEq] at read
  obtain ⟨⟨_, _⟩, whole, ⟨_, _⟩, fraction, ⟨_, _⟩, exponent, -, rfl⟩ := read
  have := length_whole? whole
  have := length_fraction? fraction
  have := length_exponent? exponent
  simp only at *
  omega

/-- The rest behind a numeral is shorter than the text. -/
theorem length_numeral?
    {text rest : Text}
    {numeral : Numeral}
    (read : numeral? text = some (numeral, rest)) :
    rest.length < text.length := by
  unfold numeral? at read
  split at read
  · have := length_unsigned? read
    simp only [List.length_cons]
    omega
  · exact length_unsigned? read

/-- The rest behind a part of a string is what is behind the others. -/
theorem consPiece_eq_some
    {piece : Piece}
    {read : Option (List Piece × Text)}
    {pieces : List Piece}
    {rest : Text}
    (equal : consPiece piece read = some (pieces, rest)) :
    ∃ others, read = some (others, rest) ∧ pieces = piece :: others := by
  cases read with
  | none => simp [consPiece] at equal
  | some parts =>
      obtain ⟨others, behind⟩ := parts
      simp only [consPiece, Option.some.injEq, Prod.mk.injEq] at equal
      exact ⟨others, by simp [equal.2], equal.1.symm⟩

/-- The rest behind a string is shorter than the text. -/
theorem length_pieces?
    {text rest : Text}
    {pieces : List Piece}
    (read : pieces? text = some (pieces, rest)) :
    rest.length < text.length := by
  fun_induction pieces? text generalizing pieces with
  | case1 => simp at read
  | case2 => simp_all
  | case3 _ _ _ _ _ tail ih =>
      simp only [Option.bind_eq_bind, Option.bind_eq_some_iff] at read
      obtain ⟨_, -, _, -, _, -, _, -, last⟩ := read
      obtain ⟨_, inside, -⟩ := consPiece_eq_some last
      have := ih inside
      simp only [List.length_cons]
      omega
  | case4 _ _ tail _ ih =>
      simp only [Option.bind_eq_bind, Option.bind_eq_some_iff] at read
      obtain ⟨_, -, last⟩ := read
      obtain ⟨_, inside, -⟩ := consPiece_eq_some last
      have := ih inside
      simp only [List.length_cons]
      omega
  | case5 => simp at read
  | case6 => simp at read
  | case7 _ tail _ _ _ ih =>
      obtain ⟨_, inside, -⟩ := consPiece_eq_some read
      have := ih inside
      simp only [List.length_cons]
      omega

/-- The rest behind a token is shorter than the text. -/
theorem length_token?
    {text rest : Text}
    {token : Token}
    (read : token? text = some (token, rest)) :
    rest.length < text.length := by
  have word :
      ∀ {word tail : Text} {token' : Token},
        ((Text.after? word tail).map fun behind => (token', behind)) = some (token, rest) →
        rest.length ≤ tail.length := by
    intro word tail token' read
    obtain ⟨behind, inside, equal⟩ := Option.map_eq_some_iff.mp read
    simp only [Prod.mk.injEq] at equal
    obtain ⟨-, rfl⟩ := equal
    simp [Text.after?_eq_some_iff.mp inside]
  unfold token? at read
  split at read
  · simp at read
  iterate 6
    · simp only [Option.some.injEq, Prod.mk.injEq] at read
      simp [← read.2]
  · obtain ⟨⟨_, _⟩, inside, equal⟩ := Option.map_eq_some_iff.mp read
    simp only [Prod.mk.injEq] at equal
    obtain ⟨-, rfl⟩ := equal
    have := length_pieces? inside
    simp only [List.length_cons]
    omega
  iterate 3
    · have := word read
      simp only [List.length_cons]
      omega
  · obtain ⟨⟨_, _⟩, inside, equal⟩ := Option.map_eq_some_iff.mp read
    simp only [Prod.mk.injEq] at equal
    obtain ⟨-, rfl⟩ := equal
    exact length_numeral? inside

/-- The tokens of a text, unless some part of it is none. -/
def tokens? (text : Text) : Option (List Token) :=
  match text with
  | [] => some []
  | char :: rest =>
      if isSpace char then
        tokens? rest
      else
        match _read : token? (char :: rest) with
        | none => none
        | some (token, behind) => (tokens? behind).map (token :: ·)
termination_by text.length
decreasing_by
  · simp
  · exact length_token? (by assumption)

end Json
end Phrasebook
