import Phrasebook.Proofs.CallSite.Scanning
import Phrasebook.Proofs.Entity.Normal
import Phrasebook.Proofs.Text.Backslashes

/-!
# Values as bodies of literals

A value is kept as the body of a single-quoted literal.  A single-quoted one is such a body as it
stands.  In a double-quoted one each single quote gets a backslash in front, whether or not it has
some already: that makes a body of it exactly if no quote was taken along by a backslash before.
-/

namespace Phrasebook
namespace Entity

open Text

/--
The value of a call site closes at its own quote exactly if it is well-formed.  A single-quoted one
is unchanged and well-formed; a double-quoted one is well-formed if no backslash in it takes a
single quote along.
-/
theorem escapedBody_value_iff
    {function text : Text}
    {fallback : Option Text}
    {occurrence : CallSite.Occurrence}
    {key : Key}
    {record : Record}
    (found : occurrence ∈ CallSite.scan function text)
    (normal : ofCallSite fallback occurrence.site = .ok (key, record)) :
    ((∀ rest, escapedBody? '\x27' (record.value ++ '\x27' :: rest) = some (record.value, rest)) ↔
      EscapedBody '\x27' record.value) ∧
    ∃ quote body, occurrence.site.value = quoted quote body ∧
      (quote = '\x27' ∧ record.value = body ∧ EscapedBody '\x27' record.value ∨
        quote = '\x22' ∧ record.value = escapeQuotes body ∧
          (EscapedBody '\x27' record.value ↔ NoQuoteTaken body)) := by
  obtain ⟨-, rfl⟩ := resolve_of_ofCallSite normal
  obtain ⟨_, _, _, -, -, -, spelled⟩ := CallSite.standsIn_of_mem_scanFrom found
  refine ⟨forall_escapedBody?_iff (by decide), ?_⟩
  have written : EscapedLiteral occurrence.site.value := spelled.value
  have value : (recordOf occurrence.site).value = normalValue occurrence.site.value := rfl
  rw [value]
  generalize occurrence.site.value = literal at written
  cases written with
  | @quoted quote body isQuote formed =>
      refine ⟨quote, body, rfl, ?_⟩
      rcases eq_or_eq_of_isQuote isQuote with rfl | rfl
      · rw [normalValue_single]
        exact .inl ⟨rfl, rfl, formed⟩
      · rw [normalValue_double]
        exact .inr ⟨rfl, rfl, escapedBody_escapeQuotes_iff formed⟩

/-- Behind a pair of backslashes a quote is free, and it gets a backslash of its own. -/
theorem escapedBody_value_iff_pair :
    let text := "<%= _t('A.B', \x22C:\x5c\x5c's \x5c\x22 \x22) %>".toList
    let site : CallSite := ⟨"'A.B'".toList, "\x22C:\x5c\x5c's \x5c\x22 \x22".toList, none, none⟩
    let value := "C:\x5c\x5c\x5c's \x5c\x22 ".toList
    (⟨site, 4, 27⟩ : CallSite.Occurrence) ∈ CallSite.scan "_t".toList text ∧
      ofCallSite none site = .ok (⟨"A".toList, "B".toList⟩, ⟨value, none, none⟩) ∧
      ((∀ rest, escapedBody? '\x27' (value ++ '\x27' :: rest) = some (value, rest)) ↔
        EscapedBody '\x27' value) ∧
      ∃ quote body, site.value = quoted quote body ∧
        (quote = '\x27' ∧ value = body ∧ EscapedBody '\x27' value ∨
          quote = '\x22' ∧ value = escapeQuotes body ∧
            (EscapedBody '\x27' value ↔ NoQuoteTaken body)) := by
  intro text site value
  have found : (⟨site, 4, 27⟩ : CallSite.Occurrence) ∈ CallSite.scan "_t".toList text := by
    decide +kernel
  have normal : ofCallSite none site =
      .ok (⟨"A".toList, "B".toList⟩, ⟨value, none, none⟩) := rfl
  exact ⟨found, normal, escapedBody_value_iff found normal⟩

/-- The apostrophe has a backslash already, and the second one sets it free. -/
theorem not_escapedBody_value :
    ∃ occurrence ∈ CallSite.scan "_t".toList "_t('A.B', \x22It\x5c's\x22)".toList,
      ∃ key record, ofCallSite none occurrence.site = .ok (key, record) ∧
        ¬EscapedBody '\x27' record.value :=
  ⟨⟨⟨"'A.B'".toList, "\x22It\x5c's\x22".toList, none, none⟩, 0, 18⟩, by decide +kernel,
    ⟨"A".toList, "B".toList⟩, ⟨"It\x5c\x5c's".toList, none, none⟩, rfl, by decide⟩

end Entity
end Phrasebook
