import Phrasebook.Text.Basic

/-!
# Quoted literals

A literal is a body between two equal quotes, single or double.  In a plain literal the body holds
anything but the quote; in an escaped literal a backslash takes the character behind it along, so
that a quote behind a backslash does not close the literal.  The readers return the body and the
rest of the text; where a body ends is determined by the text alone.

Escaping puts a backslash in front of every single quote, and unescaping takes it away.
-/

namespace Phrasebook
namespace Text

/-- Single and double quotes open and close literals. -/
def isQuote (char : Char) : Bool :=
  char = '\x27' || char = '\x22'

/-- Every single quote gets a backslash in front. -/
def escapeQuotes : Text → Text
  | [] => []
  | char :: rest =>
      if char = '\x27' then
        '\x5c' :: '\x27' :: escapeQuotes rest
      else
        char :: escapeQuotes rest

/-- Every backslash in front of a single quote is dropped, from left to right. -/
def unescapeQuotes : Text → Text
  | [] => []
  | [char] => [char]
  | char :: next :: rest =>
      if char = '\x5c' ∧ next = '\x27' then
        '\x27' :: unescapeQuotes rest
      else
        char :: unescapeQuotes (next :: rest)

/-- The text between two equal quotes at its ends, and the quote; any other text as it is. -/
def unquote : Text → Text × Option Char
  | [] => ([], none)
  | [char] => ([char], none)
  | first :: second :: rest =>
      if isQuote first ∧ (second :: rest).getLast? = some first then
        ((second :: rest).dropLast, some first)
      else
        (first :: second :: rest, none)

/-- A body between quotes, as a literal. -/
def quoted (quote : Char) (body : Text) : Text :=
  quote :: body ++ [quote]

/-- The body in front of the first quote, and the rest behind that quote. -/
def plainBody? (quote : Char) : Text → Option (Text × Text)
  | [] => none
  | char :: rest =>
      if char = quote then
        some ([], rest)
      else
        (plainBody? quote rest).map fun (body, behind) => (char :: body, behind)

/--
The body in front of the first quote that no backslash takes along, and the rest behind that
quote.
-/
def escapedBody? (quote : Char) : Text → Option (Text × Text)
  | [] => none
  | [char] => if char = quote then some ([], []) else none
  | char :: next :: rest =>
      if char = quote then
        some ([], next :: rest)
      else if char = '\x5c' then
        (escapedBody? quote rest).map fun (body, behind) => (char :: next :: body, behind)
      else
        (escapedBody? quote (next :: rest)).map fun (body, behind) => (char :: body, behind)

/--
A well-formed body of an escaped literal: every quote in it has a backslash that takes it along,
and no backslash stands at its end alone.
-/
def isEscapedBody (quote : Char) : Text → Bool
  | [] => true
  | [char] => char ≠ quote && char ≠ '\x5c'
  | char :: next :: rest =>
      if char = quote then
        false
      else if char = '\x5c' then
        isEscapedBody quote rest
      else
        isEscapedBody quote (next :: rest)

/-- A literal read by a reader of bodies: the literal as written, and the rest behind it. -/
def literal?
    (body? : Char → Text → Option (Text × Text)) :
    Text → Option (Text × Text)
  | [] => none
  | quote :: rest =>
      if isQuote quote then
        (body? quote rest).map fun (body, behind) => (quoted quote body, behind)
      else
        none

/-- A literal whose body holds anything but its quote. -/
def plainLiteral? : Text → Option (Text × Text) :=
  literal? plainBody?

/-- A literal in which a backslash takes the next character along. -/
def escapedLiteral? : Text → Option (Text × Text) :=
  literal? escapedBody?

@[simp]
theorem unescapeQuotes_cons_of_ne
    {char : Char}
    (other : char ≠ '\x5c')
    (rest : Text) :
    unescapeQuotes (char :: rest) = char :: unescapeQuotes rest := by
  cases rest <;> simp [unescapeQuotes, other]

/-- Unescaping undoes escaping. -/
@[simp]
theorem unescapeQuotes_escapeQuotes (text : Text) : unescapeQuotes (escapeQuotes text) = text := by
  induction text with
  | nil => rfl
  | cons char rest ih =>
      by_cases quote : char = '\x27'
      · simp [escapeQuotes, unescapeQuotes, quote, ih]
      · by_cases slash : char = '\x5c'
        · subst slash
          cases rest with
          | nil => rfl
          | cons next rest =>
              by_cases nextQuote : next = '\x27'
              · subst nextQuote
                simp only [escapeQuotes] at ih ⊢
                simpa [unescapeQuotes] using ih
              · simp only [escapeQuotes, quote, nextQuote, if_false] at ih ⊢
                simp [unescapeQuotes, nextQuote, ih]
        · simp [escapeQuotes, quote, slash, ih]

/-- What a plain body and its quote were read from. -/
theorem eq_append_of_plainBody?
    {quote : Char}
    {text body rest : Text}
    (read : plainBody? quote text = some (body, rest)) :
    text = body ++ quote :: rest ∧ quote ∉ body := by
  induction text generalizing body with
  | nil => simp [plainBody?] at read
  | cons char text ih =>
      unfold plainBody? at read
      split at read
      next same =>
        simp only [Option.some.injEq, Prod.mk.injEq] at read
        obtain ⟨rfl, rfl⟩ := read
        simp [same]
      next other =>
        obtain ⟨⟨inner, behind⟩, inside, equal⟩ := Option.map_eq_some_iff.mp read
        simp only [Prod.mk.injEq] at equal
        obtain ⟨rfl, rfl⟩ := equal
        obtain ⟨rfl, absent⟩ := ih inside
        exact ⟨rfl, by simp [absent, Ne.symm other]⟩

/-- A body without the quote is read up to the quote behind it. -/
theorem plainBody?_append
    {quote : Char}
    {body : Text}
    (absent : quote ∉ body)
    (rest : Text) :
    plainBody? quote (body ++ quote :: rest) = some (body, rest) := by
  induction body with
  | nil => simp [plainBody?]
  | cons char body ih =>
      simp only [List.mem_cons, not_or] at absent
      simp [plainBody?, Ne.symm absent.1, ih absent.2]

/-- What an escaped body and its quote were read from. -/
theorem eq_append_of_escapedBody?
    {quote : Char}
    {text body rest : Text}
    (read : escapedBody? quote text = some (body, rest)) :
    text = body ++ quote :: rest ∧ (quote ≠ '\x5c' → isEscapedBody quote body = true) := by
  fun_induction escapedBody? quote text generalizing body with
  | case1 => simp at read
  | case2 =>
      simp only [Option.some.injEq, Prod.mk.injEq] at read
      obtain ⟨rfl, rfl⟩ := read
      simp [isEscapedBody]
  | case3 => simp at read
  | case4 next rest =>
      simp only [Option.some.injEq, Prod.mk.injEq] at read
      obtain ⟨rfl, rfl⟩ := read
      simp [isEscapedBody]
  | case5 next tail other ih =>
      obtain ⟨⟨inner, behind⟩, inside, equal⟩ := Option.map_eq_some_iff.mp read
      simp only [Prod.mk.injEq] at equal
      obtain ⟨rfl, rfl⟩ := equal
      obtain ⟨rfl, formed⟩ := ih inside
      exact ⟨rfl, by simpa [isEscapedBody, other] using formed⟩
  | case6 char next tail other plain ih =>
      obtain ⟨⟨inner, behind⟩, inside, equal⟩ := Option.map_eq_some_iff.mp read
      simp only [Prod.mk.injEq] at equal
      obtain ⟨rfl, rfl⟩ := equal
      obtain ⟨whole, formed⟩ := ih inside
      refine ⟨by simp [whole], fun distinct => ?_⟩
      cases inner with
      | nil => simp [isEscapedBody, other, plain]
      | cons head inner => simpa [isEscapedBody, other, plain] using formed distinct

/-- A well-formed body is read up to the quote behind it. -/
theorem escapedBody?_append
    {quote : Char}
    {body : Text}
    (formed : isEscapedBody quote body = true)
    (rest : Text) :
    escapedBody? quote (body ++ quote :: rest) = some (body, rest) := by
  fun_induction isEscapedBody quote body with
  | case1 => cases rest <;> simp [escapedBody?]
  | case2 char =>
      simp only [ne_eq, decide_not, Bool.and_eq_true, Bool.not_eq_true',
        decide_eq_false_iff_not] at formed
      cases rest <;> simp [escapedBody?, formed.1, formed.2]
  | case3 => simp at formed
  | case4 next tail other ih => simp [escapedBody?, other, ih formed]
  | case5 char next tail other plain ih =>
      have inside := ih formed
      simp only [List.cons_append] at inside ⊢
      simp [escapedBody?, other, plain, inside]

/-- A literal stands in front of the rest behind it. -/
theorem eq_append_of_literal?
    {body? : Char → Text → Option (Text × Text)}
    (body_append : ∀ quote text body rest,
      body? quote text = some (body, rest) → text = body ++ quote :: rest)
    {text literal rest : Text}
    (read : literal? body? text = some (literal, rest)) :
    text = literal ++ rest := by
  cases text with
  | nil => simp [literal?] at read
  | cons quote text =>
      simp only [literal?] at read
      split at read
      · obtain ⟨⟨body, behind⟩, inside, equal⟩ := Option.map_eq_some_iff.mp read
        simp only [Prod.mk.injEq] at equal
        obtain ⟨rfl, rfl⟩ := equal
        simp [quoted, body_append _ _ _ _ inside]
      · simp at read

/-- A plain literal stands in front of the rest behind it. -/
theorem eq_append_of_plainLiteral?
    {text literal rest : Text}
    (read : plainLiteral? text = some (literal, rest)) :
    text = literal ++ rest :=
  eq_append_of_literal? (fun _ _ _ _ inside => (eq_append_of_plainBody? inside).1) read

/-- An escaped literal stands in front of the rest behind it. -/
theorem eq_append_of_escapedLiteral?
    {text literal rest : Text}
    (read : escapedLiteral? text = some (literal, rest)) :
    text = literal ++ rest :=
  eq_append_of_literal? (fun _ _ _ _ inside => (eq_append_of_escapedBody? inside).1) read

end Text
end Phrasebook
