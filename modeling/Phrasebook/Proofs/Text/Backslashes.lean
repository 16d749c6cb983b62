import Mathlib.Algebra.Group.Nat.Even
import Phrasebook.Proofs.Text.Escaping

/-!
# Runs of backslashes

Backslashes are paired from the left, so a character is taken along when an odd number of them
stands right in front of it.  Escaping puts one more backslash in front of each quote: a quote
that was free is taken along then, and one that was taken along is set free and closes the literal.

What a text between single quotes stands for is told by the pairs too.  A backslash in front of a
quote or of a backslash drops out.  Unescaping knows the first of these two pairs only, so it keeps
both backslashes of the second.
-/

namespace Phrasebook
namespace Text

/-! ## Quotes that are taken along -/

/-- How many backslashes stand at the end of a text. -/
def slashRun (text : Text) : Nat :=
  (text.reverse.takeWhile (· = '\x5c')).length

/-- No single quote is taken along by the backslashes in front of it. -/
def NoQuoteTaken (text : Text) : Prop :=
  ∀ front behind, text = front ++ '\x27' :: behind → Even (slashRun front)

@[simp]
theorem slashRun_nil : slashRun [] = 0 :=
  rfl

/-- A character in front matters only to a text of nothing but backslashes. -/
theorem slashRun_cons
    (char : Char)
    (text : Text) :
    slashRun (char :: text) =
      if slashRun text = text.length ∧ char = '\x5c' then text.length + 1 else slashRun text := by
  simp only [slashRun, List.reverse_cons, List.takeWhile_append, List.length_reverse]
  split
  next whole => by_cases slash : char = '\x5c' <;> simp [whole, slash]
  next partly => simp [partly]

theorem slashRun_cons_of_ne
    {char : Char}
    (noSlash : char ≠ '\x5c')
    (text : Text) :
    slashRun (char :: text) = slashRun text := by
  rw [slashRun_cons, if_neg fun both => noSlash both.2]

theorem slashRun_le_length (text : Text) : slashRun text ≤ text.length := by
  have shorter := (List.takeWhile_sublist (· = '\x5c') (l := text.reverse)).length_le
  rwa [List.length_reverse] at shorter

/-- A pair in front does not change which characters are taken along. -/
theorem even_slashRun_pair
    (char : Char)
    (text : Text) :
    Even (slashRun ('\x5c' :: char :: text)) ↔ Even (slashRun text) := by
  have bounded := slashRun_le_length text
  rw [slashRun_cons, slashRun_cons]
  by_cases whole : slashRun text = text.length
  · by_cases slash : char = '\x5c' <;> simp [whole, slash, Nat.even_add_one]
  · have partly : slashRun text ≠ text.length + 1 := by
      omega
    simp [whole, partly]

@[simp]
theorem noQuoteTaken_nil : NoQuoteTaken [] := by
  simp [NoQuoteTaken]

theorem noQuoteTaken_cons_of_ne
    {char : Char}
    (noSlash : char ≠ '\x5c')
    {rest : Text} :
    NoQuoteTaken (char :: rest) ↔ NoQuoteTaken rest := by
  constructor
  · rintro free front behind rfl
    rw [← slashRun_cons_of_ne noSlash]
    exact free (char :: front) behind rfl
  · intro free front behind whole
    rcases List.cons_eq_append_iff.mp whole with ⟨rfl, -⟩ | ⟨inner, rfl, cut⟩
    · simp
    · rw [slashRun_cons_of_ne noSlash]
      exact free inner behind cut

theorem noQuoteTaken_pair
    {char : Char}
    {rest : Text} :
    NoQuoteTaken ('\x5c' :: char :: rest) ↔ char ≠ '\x27' ∧ NoQuoteTaken rest := by
  constructor
  · intro free
    constructor
    · rintro rfl
      exact absurd (free ['\x5c'] rest rfl) (by decide)
    · rintro front behind rfl
      rw [← even_slashRun_pair char]
      exact free ('\x5c' :: char :: front) behind rfl
  · rintro ⟨other, free⟩ front behind whole
    rcases List.cons_eq_append_iff.mp whole with ⟨rfl, -⟩ | ⟨front, rfl, behindSlash⟩
    · simp
    · rcases List.cons_eq_append_iff.mp behindSlash with ⟨-, same⟩ | ⟨inner, rfl, inside⟩
      · injection same with same
        exact absurd same.symm other
      · rw [even_slashRun_pair]
        exact free inner behind inside

/-- The quotes of a body can be escaped if no backslash takes one of them along already. -/
theorem escapedBody_escapeQuotes_iff
    {quote : Char}
    {body : Text}
    (formed : EscapedBody quote body) :
    EscapedBody '\x27' (escapeQuotes body) ↔ NoQuoteTaken body := by
  induction formed with
  | nil => simp [escapeQuotes, EscapedBody.nil]
  | @plain char rest _ noSlash _ ih =>
      rw [noQuoteTaken_cons_of_ne noSlash, ← ih, escapeQuotes]
      split
      next => exact escapedBody_pair_iff
      next other => simp [escapedBody_cons_iff_of_ne noSlash, other]
  | @pair char rest _ ih =>
      rw [noQuoteTaken_pair, ← ih, escapeQuotes, if_neg (by decide), escapeQuotes]
      split
      -- The new backslash is taken along by the old one, and the quote is left alone.
      next quote =>
        rw [escapedBody_pair_iff, escapedBody_cons_iff_of_ne (by decide)]
        simp [quote]
      next other => rw [escapedBody_pair_iff, and_iff_right other]

/-- Between single quotes, every quote inside is taken along. -/
theorem noQuoteTaken_iff_of_body
    {body : Text}
    (formed : EscapedBody '\x27' body) :
    NoQuoteTaken body ↔ '\x27' ∉ body := by
  induction formed with
  | nil => simp
  | @plain char rest other noSlash _ ih =>
      rw [noQuoteTaken_cons_of_ne noSlash, ih, List.mem_cons, not_or]
      exact ⟨fun absent => ⟨other.symm, absent⟩, fun both => both.2⟩
  | @pair char rest _ ih =>
      rw [noQuoteTaken_pair, ih]
      simp [eq_comm]

/-! ## What a text between single quotes stands for -/

/-- A backslash in front of a quote or a backslash drops out, and any other stands for itself. -/
def meaning : Text → Text
  | [] => []
  | [char] => [char]
  | char :: next :: rest =>
      if char = '\x5c' ∧ (next = '\x5c' ∨ next = '\x27') then
        next :: meaning rest
      else
        char :: meaning (next :: rest)

theorem meaning_cons_of_ne
    {char : Char}
    (noSlash : char ≠ '\x5c')
    (rest : Text) :
    meaning (char :: rest) = char :: meaning rest := by
  cases rest <;> simp [meaning, noSlash]

/-- A pair of another kind stands for its two characters. -/
theorem meaning_pair
    {char : Char}
    (noSlash : char ≠ '\x5c')
    (noQuote : char ≠ '\x27')
    (rest : Text) :
    meaning ('\x5c' :: char :: rest) = '\x5c' :: char :: meaning rest := by
  rw [meaning, if_neg (by simp [noSlash, noQuote]), meaning_cons_of_ne noSlash]

/-- A body stands for no more characters than are left when its quotes are unescaped. -/
theorem length_meaning_le
    {body : Text}
    (formed : EscapedBody '\x27' body) :
    (meaning body).length ≤ (unescapeQuotes body).length := by
  induction formed with
  | nil => exact Nat.le_refl _
  | @plain char rest _ noSlash _ ih =>
      simpa [meaning_cons_of_ne noSlash, unescapeQuotes_cons_of_ne noSlash] using ih
  | @pair char rest formed ih =>
      by_cases quote : char = '\x27'
      · simpa [meaning, unescapeQuotes, quote] using ih
      · rw [unescapeQuotes_pair formed quote]
        by_cases slash : char = '\x5c'
        · simp only [meaning, slash, true_and, true_or, if_true, List.length_cons]
          omega
        · simpa [meaning_pair slash quote] using ih

/-- Unescaping the quotes of a body gives its meaning if there is no pair of backslashes in it. -/
theorem unescapeQuotes_eq_meaning_iff
    {body : Text}
    (formed : EscapedBody '\x27' body) :
    unescapeQuotes body = meaning body ↔ ¬['\x5c', '\x5c'] <:+: body := by
  induction formed with
  | nil => simp [unescapeQuotes, meaning]
  | @plain char rest _ noSlash _ ih =>
      rw [meaning_cons_of_ne noSlash, unescapeQuotes_cons_of_ne noSlash, List.infix_cons_iff]
      simp [ih, noSlash.symm]
  | @pair char rest formed ih =>
      rw [List.infix_cons_iff, List.infix_cons_iff]
      by_cases quote : char = '\x27'
      · simp [meaning, unescapeQuotes, quote, ih]
      · rw [unescapeQuotes_pair formed quote]
        by_cases slash : char = '\x5c'
        · have longer := length_meaning_le formed
          simp only [meaning, slash, true_and, true_or, if_true]
          constructor
          · intro same
            injection same with _ same
            have lengths := congrArg List.length same
            rw [List.length_cons] at lengths
            omega
          · intro unpaired
            exact absurd (.inl ⟨rest, rfl⟩) unpaired
        · simp [meaning_pair slash quote, ih, Ne.symm slash]

end Text
end Phrasebook
