import Mathlib.Tactic.MkIffOfInductiveProp
import Phrasebook.Proofs.Text.Escaping

/-!
# Replacing

Escaping and unescaping both replace a pattern from left to right, each occurrence behind the one
before it.  The text alone tells which occurrences these are, so nothing else than the escaped or
unescaped text comes out.

Unescaping undoes escaping on every text.  The other way round, unescaping forgets whether a quote
had a backslash in front, and escaping puts one in front of every quote.  So escaping undoes
unescaping exactly on the texts in which every quote has one, and all bodies of single-quoted
literals are among them.
-/

namespace Phrasebook
namespace Text

/-! ## Occurrences from left to right -/

/-- The text becomes the result when the occurrences of a pattern are replaced in their order. -/
@[mk_iff]
inductive Replaced (pattern substitute : Text) : Text → Text → Prop
  | nothing : Replaced pattern substitute [] []
  | found {rest result : Text} :
      Replaced pattern substitute rest result →
      Replaced pattern substitute (pattern ++ rest) (substitute ++ result)
  | kept {char : Char} {rest result : Text} :
      ¬pattern <+: char :: rest →
      Replaced pattern substitute rest result →
      Replaced pattern substitute (char :: rest) (char :: result)

/-- Replacing leaves no choice. -/
theorem Replaced.unique
    {pattern substitute text result other : Text}
    (nonempty : pattern ≠ [])
    (first : Replaced pattern substitute text result)
    (second : Replaced pattern substitute text other) :
    other = result := by
  induction first generalizing other with
  | nothing =>
      rcases (replaced_iff ..).mp second with ⟨-, rfl⟩ | ⟨_, _, -, none, -⟩ |
        ⟨_, _, _, -, -, none, -⟩
      · rfl
      · exact absurd (List.append_eq_nil_iff.mp none.symm).1 nonempty
      · exact absurd none (List.cons_ne_nil _ _).symm
  | @found rest result _ ih =>
      rcases (replaced_iff ..).mp second with ⟨none, -⟩ | ⟨_, _, again, same, rfl⟩ |
        ⟨_, _, _, elsewhere, -, same, -⟩
      · exact absurd (List.append_eq_nil_iff.mp none).1 nonempty
      · rw [← List.append_cancel_left same] at again
        rw [ih again]
      · exact absurd (same ▸ List.prefix_append pattern rest) elsewhere
  | @kept char rest result elsewhere _ ih =>
      rcases (replaced_iff ..).mp second with ⟨none, -⟩ | ⟨_, _, -, same, -⟩ |
        ⟨_, _, _, -, again, same, rfl⟩
      · exact absurd none (List.cons_ne_nil _ _)
      · exact absurd (same ▸ List.prefix_append pattern _) elsewhere
      · injection same with head tail
        subst head tail
        rw [ih again]

/-- Escaping replaces every quote by a backslash and a quote. -/
theorem replaced_escapeQuotes (text : Text) :
    Replaced ['\x27'] ['\x5c', '\x27'] text (escapeQuotes text) := by
  induction text with
  | nil => exact .nothing
  | cons char rest ih =>
      rw [escapeQuotes]
      split
      next quote =>
        subst quote
        exact .found ih
      next other =>
        refine .kept ?_ ih
        simpa [eq_comm] using other

/-- Unescaping replaces every backslash with a quote behind it by the quote. -/
theorem replaced_unescapeQuotes (text : Text) :
    Replaced ['\x5c', '\x27'] ['\x27'] text (unescapeQuotes text) := by
  fun_induction unescapeQuotes text with
  | case1 => exact .nothing
  | case2 char => exact .kept (by simp) .nothing
  | case3 first second rest escaped ih =>
      obtain ⟨rfl, rfl⟩ := escaped
      exact .found ih
  | case4 first second rest other ih =>
      refine .kept ?_ ih
      simpa [eq_comm] using other

/-! ## Escaping and unescaping -/

/--
Unescaping undoes escaping.  Escaping undoes unescaping exactly if every quote of the text has a
backslash right in front of it, and in a body between single quotes it has.  Both are what
replacing from left to right makes of the text, and nothing else is.
-/
theorem escaping_undoes_unescaping_iff (text : Text) :
    (∀ result, Replaced ['\x27'] ['\x5c', '\x27'] text result ↔ result = escapeQuotes text) ∧
    (∀ result, Replaced ['\x5c', '\x27'] ['\x27'] text result ↔ result = unescapeQuotes text) ∧
    unescapeQuotes (escapeQuotes text) = text ∧
    (escapeQuotes (unescapeQuotes text) = text ↔ QuotesEscaped text) ∧
    (EscapedBody '\x27' text → QuotesEscaped text) := by
  have escaped := replaced_escapeQuotes text
  have unescaped := replaced_unescapeQuotes text
  refine ⟨fun result => ⟨escaped.unique (by simp), ?_⟩,
    fun result => ⟨unescaped.unique (by simp), ?_⟩, unescapeQuotes_escapeQuotes text,
    ⟨?_, QuotesEscaped.escapeQuotes_unescapeQuotes⟩, ?_⟩
  · rintro rfl
    exact escaped
  · rintro rfl
    exact unescaped
  · intro same
    rw [← same]
    exact quotesEscaped_escapeQuotes _
  · exact EscapedBody.quotesEscaped

end Text
end Phrasebook
