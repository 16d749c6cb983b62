import Phrasebook.Entity.Normal
import Phrasebook.Proofs.CallSite.Grammar
import Phrasebook.Proofs.Entity.Key

/-!
# Normal forms

What normalisation makes of a priority: the token behind the comma without its line breaks and
outer blanks.  It keeps none of the characters that end a priority in a call.
-/

namespace Phrasebook
namespace Entity

open Text

theorem resolve_of_ofCallSite
    {fallback : Option Text}
    {site : CallSite}
    {key : Key}
    {record : Record}
    (normal : ofCallSite fallback site = .ok (key, record)) :
    Key.resolve (unquote site.key).1 fallback = .ok key ∧ record = recordOf site := by
  unfold ofCallSite at normal
  cases resolved : Key.resolve (unquote site.key).1 fallback with
  | error cause =>
      rw [resolved] at normal
      simp [Except.map] at normal
  | ok found =>
      rw [resolved] at normal
      simp only [Except.map, Except.ok.injEq, Prod.mk.injEq] at normal
      obtain ⟨rfl, rfl⟩ := normal
      exact ⟨rfl, rfl⟩

@[simp]
theorem normalValue_single (body : Text) : normalValue (quoted '\x27' body) = body := by
  rw [normalValue, unquote_quoted (by decide)]
  rfl

@[simp]
theorem normalValue_double (body : Text) :
    normalValue (quoted '\x22' body) = escapeQuotes body := by
  rw [normalValue, unquote_quoted (by decide)]
  rfl

/-- A normal value has its quotes escaped, from whichever quotes it comes. -/
theorem escapeQuotes_unescapeQuotes_normalValue
    {literal : Text}
    (spelled : EscapedLiteral literal) :
    escapeQuotes (unescapeQuotes (normalValue literal)) = normalValue literal := by
  cases spelled with
  | @quoted quote body isQuote formed =>
      rcases eq_or_eq_of_isQuote isQuote with rfl | rfl
      · rw [normalValue_single]
        exact escapeQuotes_unescapeQuotes formed
      · rw [normalValue_double, unescapeQuotes_escapeQuotes]

/-- The comment of a call site is the body of its literal. -/
theorem quoted_of_recordOf
    {site : CallSite}
    {literal comment : Text}
    (written : site.comment = some literal)
    (spelled : EscapedLiteral literal)
    (normal : (recordOf site).comment = some comment) :
    ∃ quote, isQuote quote = true ∧ literal = quoted quote comment ∧
      EscapedBody quote comment := by
  rw [recordOf, written, Option.map_some, Option.some.injEq] at normal
  cases spelled with
  | @quoted quote body isQuote formed =>
      rw [unquote_quoted isQuote] at normal
      subst normal
      exact ⟨quote, isQuote, rfl, formed⟩

/-- The token of a priority that is spelled, without its comma and what normalisation drops. -/
theorem normalPriority?_spelled
    {before behind token : Text}
    (blank : Blank before) :
    normalPriority? (before ++ ',' :: (behind ++ token)) =
      match trim ((behind ++ token).filter fun char => char ≠ '\n' && char ≠ '\x0d') with
      | [] => none
      | token => some token := by
  unfold normalPriority?
  rw [trimStart_append_cons blank (by decide)]
  rfl

/-- A token without the blanks at its ends and its line breaks; nothing is left of a blank one. -/
def cleanToken? (token : Text) : Option Text :=
  if Blank token then
    none
  else
    some ((trim token).filter fun char => char ≠ '\n' && char ≠ '\x0d')

theorem not_break_of_visible
    (char : Char)
    (visible : isBlank char = false) :
    (char ≠ '\n' && char ≠ '\x0d') = true := by
  simp only [ne_eq, Bool.and_eq_true, decide_eq_true_eq]
  constructor
  · rintro rfl
    exact absurd visible (by decide)
  · rintro rfl
    exact absurd visible (by decide)

/-- A written priority is normalised to its clean token, whatever blanks stand around the token. -/
theorem normalPriority?_written
    {before behind gap : Text}
    (blank : Blank before)
    (blankBehind : Blank behind)
    (blankGap : Blank gap)
    (token : Text) :
    normalPriority? (before ++ ',' :: (behind ++ (token ++ gap))) = cleanToken? token := by
  rw [normalPriority?_spelled blank, trim_filter not_break_of_visible,
    trim_append_of_blank blankBehind blankGap, cleanToken?]
  split
  next nothing =>
    rw [if_pos]
    rw [← trim_eq_nil_iff]
    cases trimmed : trim token with
    | nil => rfl
    | cons char rest =>
        have cut := (trim_eq_self_iff.mp (trim_trim token)).1
        have visible := trimStart_eq_self_iff.mp cut char rest trimmed
        rw [trimmed, List.filter_cons, if_pos (not_break_of_visible char visible)] at nothing
        exact absurd nothing (List.cons_ne_nil _ _)
  next filled =>
    rw [if_neg]
    intro blankToken
    rw [trim_eq_nil_iff.mpr blankToken] at filled
    exact filled rfl

/-- A priority that is left over by normalisation is a single clean token. -/
theorem token_of_normalPriority?
    {raw token : Text}
    (spelled : CallSite.PriorityText raw)
    (normal : normalPriority? raw = some token) :
    token ≠ [] ∧ trim token = token ∧
      ∀ char ∈ token, char ≠ '\n' ∧ char ≠ '\x0d' ∧ char ≠ ',' ∧ char ≠ ')' := by
  obtain ⟨before, behind, written, blank, blankBehind, writtenChars, rfl⟩ := spelled
  rw [normalPriority?_spelled blank] at normal
  split at normal
  next => simp at normal
  next found filled =>
    injection normal with same
    subst same
    refine ⟨filled, trim_trim _, ?_⟩
    intro char member
    have kept := List.mem_filter.mp (mem_of_mem_trim member)
    simp only [List.mem_append, ne_eq, decide_not, Bool.and_eq_true, Bool.not_eq_true',
      decide_eq_false_iff_not] at kept
    obtain ⟨gap | inside, noBreak⟩ := kept
    · have ended := CallSite.isPriorityChar_iff.mp
        (CallSite.isPriorityChar_of_blank blankBehind char gap)
      exact ⟨noBreak.1, noBreak.2, ended⟩
    · exact ⟨noBreak.1, noBreak.2, writtenChars char inside⟩

end Entity
end Phrasebook
