import Phrasebook.Proofs.CallSite.Scanning
import Phrasebook.Proofs.Entity.Normal

/-!
# Priorities as single tokens

The priority of a call site is what stands behind a comma, up to the next mark of the call.  In its
normal form nothing but blanks is lost: its ends and its line breaks are cut away, and the visible
characters stay as they are.  It holds no mark, so one comma is all that has to be taken off.
-/

namespace Phrasebook
namespace Entity

open Text

theorem cleanToken?_eq_none_iff
    {token : Text} :
    cleanToken? token = none ↔ Blank token := by
  rw [cleanToken?]
  split
  next blank => simp [blank]
  next filled => simp [filled]

/-- Cleaning a token does not touch its visible characters. -/
theorem visibleChars_of_cleanToken?
    {token cleaned : Text}
    (clean : cleanToken? token = some cleaned) :
    visibleChars cleaned = visibleChars token := by
  rw [cleanToken?] at clean
  split at clean
  · simp at clean
  · injection clean with same
    rw [← same, visibleChars_filter not_break_of_visible, visibleChars_trim]

/--
The priority of an entity is what its call site has behind the first comma of the priority.  It is
missing exactly if that is blank.  Otherwise it is a trimmed token without line breaks, commas and
closing parentheses, with the same visible characters in the same order.
-/
theorem priority_of_capture
    {function text raw : Text}
    {occurrence : CallSite.Occurrence}
    (found : occurrence ∈ CallSite.scan function text)
    (captured : occurrence.site.priority = some raw) :
    ∃ argument, trimStart raw = ',' :: argument ∧
      (normalPriority? raw = none ↔ Blank argument) ∧
      (∀ token, normalPriority? raw = some token →
        token ≠ [] ∧ trim token = token ∧
          (∀ char ∈ token, char ≠ '\n' ∧ char ≠ '\x0d' ∧ char ≠ ',' ∧ char ≠ ')') ∧
          visibleChars token = visibleChars argument) ∧
      ∀ fallback key record, ofCallSite fallback occurrence.site = .ok (key, record) →
        record.priority = normalPriority? raw := by
  obtain ⟨_, _, _, -, -, -, spelled⟩ := CallSite.standsIn_of_mem_scanFrom found
  have ranked := spelled.priorityText captured
  have ⟨before, behind, written, blank, _, _, spelling⟩ := ranked
  subst spelling
  have cleaned : normalPriority? (before ++ ',' :: (behind ++ written)) =
      cleanToken? (behind ++ written) := by
    simpa using normalPriority?_written blank .nil .nil (behind ++ written)
  refine ⟨behind ++ written, trimStart_append_cons blank (by decide) _, ?_, ?_, ?_⟩
  · rw [cleaned, cleanToken?_eq_none_iff]
  · intro token kept
    obtain ⟨filled, trimmed, chars⟩ := token_of_normalPriority? ranked kept
    exact ⟨filled, trimmed, chars, visibleChars_of_cleanToken? (cleaned ▸ kept)⟩
  · intro fallback key record normal
    obtain ⟨-, rfl⟩ := resolve_of_ofCallSite normal
    rw [recordOf, captured, Option.bind_some]

/-- A priority over two lines with a quote in it, between blanks of several kinds. -/
theorem priority_of_capture_broken :
    let text := "<%= _t('A.B', 'Save' ,\u00a0\n PR_\nHIGH 'x'\t, 'note') %>".toList
    let raw := " ,\u00a0\n PR_\nHIGH 'x'\t".toList
    let site : CallSite := ⟨"'A.B'".toList, "'Save'".toList, some raw, some "'note'".toList⟩
    (⟨site, 4, 48⟩ : CallSite.Occurrence) ∈ CallSite.scan "_t".toList text ∧
      normalPriority? raw = some "PR_HIGH 'x'".toList ∧
      ∃ argument, trimStart raw = ',' :: argument ∧
        (normalPriority? raw = none ↔ Blank argument) ∧
        (∀ token, normalPriority? raw = some token →
          token ≠ [] ∧ trim token = token ∧
            (∀ char ∈ token, char ≠ '\n' ∧ char ≠ '\x0d' ∧ char ≠ ',' ∧ char ≠ ')') ∧
            visibleChars token = visibleChars argument) ∧
        ∀ fallback key record, ofCallSite fallback site = .ok (key, record) →
          record.priority = normalPriority? raw := by
  intro text raw site
  have found : (⟨site, 4, 48⟩ : CallSite.Occurrence) ∈ CallSite.scan "_t".toList text := by
    decide +kernel
  exact ⟨found, by decide +kernel, priority_of_capture found rfl⟩

end Entity
end Phrasebook
