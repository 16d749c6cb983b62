import Phrasebook.Proofs.Entity.Normal
import Phrasebook.Proofs.Table.Statements
import Phrasebook.Proofs.Text.Backslashes

/-!
# Comments in statements

A comment keeps the backslashes of the literal that it was written as, and a statement escapes its
quotes once more.  It is read back if no quote in it was taken along by a backslash already.  A
comment from a single-quoted literal must not hold a quote at all then, since each one in it has its
backslash.  All other comments are lost, with their entities or cut short.
-/

namespace Phrasebook
namespace Table
namespace Statements

open Text

/-- A statement on its own is read back as the one entity that it assigns. -/
theorem read_statement
    {locale : Text}
    {key : Entity.Key}
    {record : Entity.Record}
    (localePlain : '\x27' ∉ locale)
    (legible : Legible key.text record)
    (plain : ∀ text, record.priority = some text → PlainPriority text) :
    read (statement locale key record) = Dictionary.ofList [(key.text, record)] := by
  have found := statement?_append localePlain legible plain []
  rw [List.append_nil] at found
  have entry : entries (statement locale key record) =
      [⟨locale, key.space, key.name, record⟩] := by
    rw [entries_of_statement? found, entries_cons_of_ne (by decide), entries_nil]
  rw [read, entry, List.map_singleton]
  rfl

/-- Whatever text is read, the comments that come out of it can be escaped. -/
theorem escapedBody_of_mem_read
    {text comment : Text}
    {entity : Text × Entity.Record}
    (member : entity ∈ (read text).entries)
    (noted : entity.2.comment = some comment) :
    EscapedBody '\x27' (escapeQuotes comment) :=
  (legible_of_mem_read member).comment comment noted

/--
The comment of a call site is read back from a statement exactly if no backslash in it takes a
single quote along, and exactly then its literal closes at its own quote.  If it is not, no entity
of the statement has that comment.
-/
theorem read_statement_eq_iff
    {locale literal comment value : Text}
    {key : Entity.Key}
    {priority : Option Text}
    {site : CallSite}
    (localePlain : '\x27' ∉ locale)
    (keyPlain : '\x27' ∉ key.text)
    (formed : EscapedBody '\x27' value)
    (plain : ∀ text, priority = some text → PlainPriority text ∧ text ≠ "null".toList)
    (written : site.comment = some literal)
    (spelled : EscapedLiteral literal)
    (normal : (Entity.recordOf site).comment = some comment) :
    (read (statement locale key ⟨value, priority, some comment⟩) =
        Dictionary.ofList [(key.text, ⟨value, priority, some comment⟩)] ↔ NoQuoteTaken comment) ∧
    ((∃ entity ∈ (read (statement locale key ⟨value, priority, some comment⟩)).entries,
        entity.2.comment = some comment) ↔ NoQuoteTaken comment) ∧
    ((∀ rest, escapedBody? '\x27' (escapeQuotes comment ++ '\x27' :: rest) =
        some (escapeQuotes comment, rest)) ↔ NoQuoteTaken comment) ∧
    ((∃ body, literal = quoted '\x27' body) → (NoQuoteTaken comment ↔ '\x27' ∉ comment)) := by
  obtain ⟨quote, -, whole, commentFormed⟩ := Entity.quoted_of_recordOf written spelled normal
  have escapable := escapedBody_escapeQuotes_iff commentFormed
  have readBack : NoQuoteTaken comment →
      read (statement locale key ⟨value, priority, some comment⟩) =
        Dictionary.ofList [(key.text, ⟨value, priority, some comment⟩)] := by
    intro free
    refine read_statement localePlain ⟨keyPlain, formed, ?_, ?_⟩ fun text given =>
      (plain text given).1
    · intro word
      exact (plain _ word).2 rfl
    · rintro text ⟨⟩
      exact escapable.mpr free
  have readable : (∃ entity ∈ (read (statement locale key ⟨value, priority, some comment⟩)).entries,
      entity.2.comment = some comment) → NoQuoteTaken comment := by
    rintro ⟨entity, member, noted⟩
    exact escapable.mp (escapedBody_of_mem_read member noted)
  have single : ((key.text, ⟨value, priority, some comment⟩) : Text × Entity.Record) ∈
      (Dictionary.ofList [(key.text, (⟨value, priority, some comment⟩ : Entity.Record))]).entries :=
    List.mem_singleton_self _
  refine ⟨⟨?_, readBack⟩, ⟨readable, ?_⟩, ?_, ?_⟩
  · intro same
    exact readable ⟨_, same ▸ single, rfl⟩
  · intro free
    exact ⟨_, readBack free ▸ single, rfl⟩
  · rw [forall_escapedBody?_iff (by decide), escapable]
  · rintro ⟨body, single⟩
    rw [whole] at single
    injection single with same
    subst same
    exact noQuoteTaken_iff_of_body commentFormed

/-- Quotes in a double-quoted comment are free, even behind a pair of backslashes. -/
theorem read_statement_eq_iff_double :
    let comment := "the rider's \x5c\x22gear\x5c\x22 in C:\x5c\x5c'x'".toList
    let literal := quoted '\x22' comment
    let site : CallSite := ⟨"'A.B'".toList, "'Gear'".toList, some ", PR_HIGH".toList, some literal⟩
    let key : Entity.Key := ⟨"A".toList, "B".toList⟩
    let record : Entity.Record := ⟨"Gear".toList, some "PR_HIGH".toList, some comment⟩
    '\x27' ∉ "en_US".toList ∧ '\x27' ∉ key.text ∧ EscapedBody '\x27' record.value ∧
      (∀ text, record.priority = some text → PlainPriority text ∧ text ≠ "null".toList) ∧
      site.comment = some literal ∧ EscapedLiteral literal ∧
      (Entity.recordOf site).comment = some comment ∧
      (read (statement "en_US".toList key record) = Dictionary.ofList [(key.text, record)] ↔
        NoQuoteTaken comment) ∧
      ((∃ entity ∈ (read (statement "en_US".toList key record)).entries,
        entity.2.comment = some comment) ↔ NoQuoteTaken comment) ∧
      ((∀ rest, escapedBody? '\x27' (escapeQuotes comment ++ '\x27' :: rest) =
        some (escapeQuotes comment, rest)) ↔ NoQuoteTaken comment) ∧
      ((∃ body, literal = quoted '\x27' body) → (NoQuoteTaken comment ↔ '\x27' ∉ comment)) := by
  intro comment literal site key record
  have localePlain : '\x27' ∉ "en_US".toList := by decide
  have keyPlain : '\x27' ∉ key.text := by decide
  have formed : EscapedBody '\x27' record.value := by decide
  have plain : ∀ text, record.priority = some text →
      PlainPriority text ∧ text ≠ "null".toList := by
    rintro text ⟨⟩
    decide
  have spelled : EscapedLiteral literal :=
    .quoted (by decide) ((isEscapedBody_iff (by decide)).mp (by decide))
  have normal : (Entity.recordOf site).comment = some comment := rfl
  exact ⟨localePlain, keyPlain, formed, plain, rfl, spelled, normal,
    read_statement_eq_iff localePlain keyPlain formed plain rfl spelled normal⟩

/-- A single-quoted comment has a backslash in front of its quote, which the new one escapes. -/
theorem read_statement_ne :
    let literal := quoted '\x27' "It\x5c's a label".toList
    let site : CallSite := ⟨"'A.B'".toList, "'Save'".toList, some ", 10".toList, some literal⟩
    let key : Entity.Key := ⟨"A".toList, "B".toList⟩
    let record : Entity.Record :=
      ⟨"Save".toList, some "10".toList, (Entity.recordOf site).comment⟩
    EscapedLiteral literal ∧
      read (statement "en_US".toList key record) ≠ Dictionary.ofList [(key.text, record)] :=
  ⟨.quoted (by decide) (by decide), by decide +kernel⟩

end Statements
end Table
end Phrasebook
