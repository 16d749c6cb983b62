import Mathlib.Data.List.Infix
import Phrasebook.Proofs.Dictionary
import Phrasebook.Proofs.Table.Listing
import Phrasebook.Proofs.Text.Escaping
import Phrasebook.Proofs.Text.Trimming
import Phrasebook.Table.Store

/-!
# Reading a table of statements back

Each piece of a statement is read back from in front of any rest.  The delicate piece is the
priority, which has no delimiters of its own: it is read back when nothing inside it looks like
the end of an array.  In an escaped priority no quote follows a comma, so only a closing
parenthesis with a semicolon could look like one.

A table is read back when all its entities can be stored.  In the other direction, whatever the
reader returns is legible, so a map with an illegible entity is lost.
-/

namespace Phrasebook
namespace Table
namespace Statements

open Text

/-! ## Indices and bodies -/

theorem index?_eq_some_iff
    {text body rest : Text} :
    index? text = some (body, rest) ↔ text = index body ++ rest ∧ '\x27' ∉ body := by
  simp only [index?, Option.bind_eq_bind, Option.bind_eq_some_iff, Option.pure_def,
    Option.some.injEq, Prod.mk.injEq, Prod.exists, after?_eq_some_iff, plainBody?_eq_some_iff]
  constructor
  · rintro ⟨_, rfl, inner, _, ⟨rfl, absent⟩, _, rfl, rfl, rfl⟩
    exact ⟨by simp [index], absent⟩
  · rintro ⟨rfl, absent⟩
    exact ⟨_, by simp [index], body, _, ⟨rfl, absent⟩, rest, rfl, rfl, rfl⟩

theorem body?_eq_some_iff
    {text body rest : Text} :
    body? text = some (body, rest) ↔
      text = quoted '\x27' body ++ rest ∧ EscapedBody '\x27' body := by
  simp only [body?, Option.bind_eq_bind, Option.bind_eq_some_iff, after?_eq_some_iff,
    escapedBody?_eq_some_iff (by decide : '\x27' ≠ '\x5c')]
  constructor
  · rintro ⟨_, rfl, rfl, formed⟩
    exact ⟨by simp [quoted], formed⟩
  · rintro ⟨rfl, formed⟩
    exact ⟨_, by simp [quoted], rfl, formed⟩

/-! ## Ends of arrays -/

/-- A comment stands between a comma and the end of the array, blanks at its sides. -/
theorem commentEnd?_eq_some_iff
    {text comment rest : Text} :
    commentEnd? text = some (comment, rest) ↔
      EscapedBody '\x27' comment ∧ ∃ before behind, Blank before ∧ Blank behind ∧
        text = ',' :: (before ++ (quoted '\x27' comment ++ (behind ++ (");".toList ++ rest)))) := by
  simp only [commentEnd?, Option.bind_eq_bind, Option.bind_eq_some_iff, Option.pure_def,
    Option.some.injEq, Prod.mk.injEq, Prod.exists, after?_eq_some_iff, body?_eq_some_iff]
  constructor
  · rintro ⟨inside, rfl, body, tail, ⟨literal, formed⟩, _, closed, rfl, rfl⟩
    obtain ⟨before, blank, rfl⟩ := eq_append_of_trimStart literal
    obtain ⟨behind, blankBehind, rfl⟩ := eq_append_of_trimStart closed
    exact ⟨formed, before, behind, blank, blankBehind, rfl⟩
  · rintro ⟨formed, before, behind, blank, blankBehind, rfl⟩
    refine ⟨_, rfl, comment, behind ++ (");".toList ++ rest), ⟨?_, formed⟩, rest, ?_, rfl, rfl⟩
    · exact trimStart_append_cons blank (by decide) _
    · exact trimStart_append_cons blankBehind (by decide) _

/-- What is written behind a priority, up to the semicolon. -/
def closing (comment : Option Text) : Text :=
  (match comment with
    | none => []
    | some comment => ",\n\t".toList ++ quoted '\x27' (escapeQuotes comment)) ++ "\n);".toList

theorem arrayEnd?_closing
    {comment : Option Text}
    (formed : ∀ text, comment = some text → EscapedBody '\x27' (escapeQuotes text))
    (rest : Text) :
    arrayEnd? (trimStart (closing comment ++ rest)) = some (comment.map escapeQuotes, rest) := by
  have newLine : Blank "\n".toList := by decide
  have indent : Blank "\n\t".toList := by decide
  cases comment with
  | none =>
      have cut : trimStart (closing none ++ rest) = ");".toList ++ rest :=
        trimStart_append_cons newLine (by decide) _
      have noteless : commentEnd? (");".toList ++ rest) = none := by
        simp [commentEnd?, after?]
      rw [cut, arrayEnd?, noteless, after?_append, Option.map_some, Option.map_none]
  | some text =>
      have noted : commentEnd? (closing (some text) ++ rest) = some (escapeQuotes text, rest) := by
        rw [commentEnd?_eq_some_iff]
        refine ⟨formed text rfl, "\n\t".toList, "\n".toList, indent, newLine, ?_⟩
        simp [closing]
      have visible : trimStart (closing (some text) ++ rest) = closing (some text) ++ rest :=
        trimStart_cons_of_visible (by decide) _
      rw [visible, arrayEnd?, noted, Option.map_some]

/-- Nothing ends an array here, neither a parenthesis nor a comma with a literal. -/
theorem arrayEnd?_eq_none
    {char : Char}
    {behind : Text}
    (noParenthesis : ∀ rest, char :: behind ≠ ')' :: ';' :: rest)
    (noComment : char = ',' → ∀ rest, trimStart behind ≠ '\x27' :: rest) :
    arrayEnd? (char :: behind) = none := by
  unfold arrayEnd?
  split
  next comment rest read =>
    obtain ⟨-, before, _, blank, -, whole⟩ := commentEnd?_eq_some_iff.mp read
    injection whole with comma inside
    subst inside
    exact absurd (trimStart_append_cons blank (by decide) _) (noComment comma _)
  next =>
    rw [Option.map_eq_none_iff, Option.eq_none_iff_forall_ne_some]
    intro rest closed
    exact noParenthesis rest (after?_eq_some_iff.mp closed)

/-! ## Priorities -/

/-- A token is read up to the first place where an array ends, if the token is on one line. -/
theorem ranking?_append
    {token tail rest : Text}
    {comment : Option Text}
    (oneLine : '\n' ∉ token)
    (noEnd : ∀ suffix, suffix <:+ token → suffix ≠ [] →
      arrayEnd? (trimStart (suffix ++ tail)) = none)
    (atEnd : arrayEnd? (trimStart tail) = some (comment, rest)) :
    ranking? (token ++ tail) = some (token, comment, rest) := by
  induction token with
  | nil =>
      unfold ranking?
      rw [List.nil_append, atEnd]
  | cons char token ih =>
      rw [List.mem_cons, not_or] at oneLine
      have inside := ih oneLine.2 fun suffix isSuffix =>
        noEnd suffix (isSuffix.trans (List.suffix_cons char token))
      unfold ranking?
      rw [noEnd _ (List.suffix_refl _) (List.cons_ne_nil _ _)]
      simp only [List.cons_append, Ne.symm oneLine.1, if_false, inside, Option.map_some]

/-- A priority is read up to the first end of an array, and it is on one line. -/
theorem ranking?_eq_some_iff
    {text token rest : Text}
    {comment : Option Text} :
    ranking? text = some (token, comment, rest) ↔
      ∃ tail, text = token ++ tail ∧ '\n' ∉ token ∧
        (∀ suffix, suffix <:+ token → suffix ≠ [] →
          arrayEnd? (trimStart (suffix ++ tail)) = none) ∧
        arrayEnd? (trimStart tail) = some (comment, rest) := by
  constructor
  · intro read
    induction text generalizing token with
    | nil =>
        unfold ranking? at read
        split at read
        next found behind ended =>
          simp only [Option.some.injEq, Prod.mk.injEq] at read
          obtain ⟨rfl, rfl, rfl⟩ := read
          exact ⟨[], rfl, List.not_mem_nil, by simp, ended⟩
        next => simp at read
    | cons char text ih =>
        unfold ranking? at read
        split at read
        next found behind ended =>
          simp only [Option.some.injEq, Prod.mk.injEq] at read
          obtain ⟨rfl, rfl, rfl⟩ := read
          exact ⟨char :: text, rfl, List.not_mem_nil, by simp, ended⟩
        next unended =>
          dsimp only at read
          split at read
          next => simp at read
          next inLine =>
            obtain ⟨⟨later, found, behind⟩, inside, equal⟩ := Option.map_eq_some_iff.mp read
            simp only [Prod.mk.injEq] at equal
            obtain ⟨rfl, rfl, rfl⟩ := equal
            obtain ⟨tail, rfl, oneLine, noEnd, ended⟩ := ih inside
            refine ⟨tail, rfl, ?_, ?_, ended⟩
            · simp [oneLine, Ne.symm inLine]
            · intro suffix isSuffix nonempty
              rcases List.suffix_cons_iff.mp isSuffix with rfl | shorter
              · exact unended
              · exact noEnd suffix shorter nonempty
  · rintro ⟨tail, rfl, oneLine, noEnd, ended⟩
    exact ranking?_append oneLine noEnd ended

/-- A priority that can be told from what is written around it. -/
structure PlainPriority (priority : Text) : Prop where
  /-- There is something to be told. -/
  nonempty : priority ≠ []
  /-- It has no blanks at its ends. -/
  trimmed : trim priority = priority
  /-- It is on one line. -/
  oneLine : '\n' ∉ priority
  /-- It does not close the array. -/
  unclosed : ¬[')', ';'] <:+: priority

namespace PlainPriority

variable {priority : Text}

instance : Decidable (PlainPriority priority) :=
  decidable_of_iff
    (priority ≠ [] ∧ trim priority = priority ∧ '\n' ∉ priority ∧ ¬[')', ';'] <:+: priority)
    ⟨fun ⟨nonempty, trimmed, oneLine, unclosed⟩ => ⟨nonempty, trimmed, oneLine, unclosed⟩,
      fun plain => ⟨plain.nonempty, plain.trimmed, plain.oneLine, plain.unclosed⟩⟩

theorem endsVisible (plain : PlainPriority priority) : EndsVisible (escapeQuotes priority) := by
  obtain ⟨front, char, whole, visible⟩ := EndsVisible.of_trim_eq_self plain.trimmed plain.nonempty
  rw [whole, escapeQuotes_append]
  by_cases quote : char = '\x27'
  · exact ⟨escapeQuotes front ++ ['\x5c'], '\x27', by simp [escapeQuotes, quote], by decide⟩
  · exact ⟨escapeQuotes front, char, by simp [escapeQuotes, quote], visible⟩

theorem trimStart_escapeQuotes (plain : PlainPriority priority) :
    trimStart (escapeQuotes priority) = escapeQuotes priority := by
  have first := trimStart_eq_self_iff.mp (trim_eq_self_iff.mp plain.trimmed).1
  cases priority with
  | nil => rfl
  | cons char rest =>
      by_cases quote : char = '\x27'
      · rw [escapeQuotes, if_pos quote]
        exact trimStart_cons_of_visible (by decide) _
      · rw [escapeQuotes, if_neg quote]
        exact trimStart_cons_of_visible (first char rest rfl) _

theorem trim_escapeQuotes (plain : PlainPriority priority) :
    trim (escapeQuotes priority) = escapeQuotes priority := by
  rw [trim_eq_self_iff]
  refine ⟨plain.trimStart_escapeQuotes, ?_⟩
  obtain ⟨front, char, whole, visible⟩ := plain.endsVisible
  rw [trimEnd_eq_self_iff]
  intro other last equal
  rw [whole] at equal
  have same : [char] = [last] := List.append_inj_right' equal rfl
  injection same with same
  rw [← same]
  exact visible

/-- No quote follows a comma in an escaped text, because a backslash stands in front of it. -/
theorem no_quote_behind_comma
    {behind rest : Text}
    (isSuffix : ',' :: behind <:+ escapeQuotes priority) :
    trimStart behind ≠ '\x27' :: rest := by
  intro cut
  obtain ⟨front, whole⟩ := isSuffix
  obtain ⟨gap, blank, rfl⟩ := eq_append_of_trimStart cut
  have regrouped : escapeQuotes priority = (front ++ ',' :: gap) ++ '\x27' :: rest := by
    simp [← whole]
  obtain ⟨earlier, slash⟩ := slash_in_front_of_quote regrouped
  exact append_cons_ne_concat blank (by decide) (by decide) front earlier slash

theorem not_closed
    (plain : PlainPriority priority)
    {tail : Text}
    (noSemicolon : ∀ rest, tail ≠ ';' :: rest)
    {char : Char}
    {behind : Text}
    (isSuffix : char :: behind <:+ escapeQuotes priority)
    (rest : Text) :
    char :: (behind ++ tail) ≠ ')' :: ';' :: rest := by
  intro closed
  injection closed with parenthesis semicolon
  subst parenthesis
  cases behind with
  | nil => exact noSemicolon rest semicolon
  | cons next behind =>
      injection semicolon with same
      subst same
      have neighbours : [')', ';'] <:+: escapeQuotes priority :=
        (List.prefix_append [')', ';'] behind).isInfix.trans isSuffix.isInfix
      apply plain.unclosed
      exact infix_of_escapeQuotes (by decide) (by decide) (by decide) neighbours

theorem not_commented
    (plain : PlainPriority priority)
    {tail : Text}
    (noQuote : ∀ rest, trimStart tail ≠ '\x27' :: rest)
    {behind : Text}
    (isSuffix : ',' :: behind <:+ escapeQuotes priority)
    (rest : Text) :
    trimStart (behind ++ tail) ≠ '\x27' :: rest := by
  by_cases nothing : behind = []
  · rw [nothing]
    exact noQuote rest
  · have shorter := (List.suffix_cons ',' behind).trans isSuffix
    have visible := plain.endsVisible.of_suffix shorter nothing
    rw [visible.trimStart_append]
    intro quote
    cases inner : trimStart behind with
    | nil => exact visible.trimStart_ne_nil inner
    | cons head later =>
        rw [inner] at quote
        injection quote with same
        subst same
        exact no_quote_behind_comma isSuffix inner

/-- No array ends inside a plain priority, whatever follows it but a semicolon or a quote. -/
theorem noEnd
    (plain : PlainPriority priority)
    {tail : Text}
    (noSemicolon : ∀ rest, tail ≠ ';' :: rest)
    (noQuote : ∀ rest, trimStart tail ≠ '\x27' :: rest)
    {suffix : Text}
    (isSuffix : suffix <:+ escapeQuotes priority)
    (nonempty : suffix ≠ []) :
    arrayEnd? (trimStart (suffix ++ tail)) = none := by
  have visible := plain.endsVisible.of_suffix isSuffix nonempty
  have shorter := (trimStart_suffix suffix).trans isSuffix
  rw [visible.trimStart_append]
  cases cut : trimStart suffix with
  | nil => exact absurd cut visible.trimStart_ne_nil
  | cons char behind =>
      rw [cut] at shorter
      apply arrayEnd?_eq_none
      · exact plain.not_closed noSemicolon shorter
      · rintro rfl
        exact plain.not_commented noQuote shorter

end PlainPriority

theorem priority?_escapeQuotes
    {priority : Text}
    (plain : PlainPriority priority) :
    priority? (escapeQuotes priority) =
      if priority = "null".toList then none else some priority := by
  have nonempty : escapeQuotes priority ≠ [] := by
    obtain ⟨front, char, whole, -⟩ := plain.endsVisible
    simp [whole]
  have word : escapeQuotes priority = "null".toList ↔ priority = "null".toList := by
    constructor
    · intro same
      rw [← unescapeQuotes_escapeQuotes priority, same]
      decide
    · rintro rfl
      decide
  simp only [priority?, plain.trim_escapeQuotes, nonempty, word, false_or,
    unescapeQuotes_escapeQuotes]

theorem ranking?_escapeQuotes
    {priority : Text}
    {comment : Option Text}
    (plain : PlainPriority priority)
    (formed : ∀ text, comment = some text → EscapedBody '\x27' (escapeQuotes text))
    (rest : Text) :
    ranking? (escapeQuotes priority ++ (closing comment ++ rest)) =
      some (escapeQuotes priority, comment.map escapeQuotes, rest) := by
  have newLine : isBlank '\n' = true := by decide
  have comma : isBlank ',' = false := by decide
  have parenthesis : isBlank ')' = false := by decide
  apply ranking?_append
  · intro member
    rcases mem_of_mem_escapeQuotes member with slash | inside
    · exact absurd slash (by decide)
    · exact plain.oneLine inside
  · intro suffix isSuffix nonempty
    refine plain.noEnd ?_ ?_ isSuffix nonempty
    · cases comment <;> simp [closing]
    · cases comment <;> simp [closing, trimStart, newLine, comma, parenthesis]
  · exact arrayEnd?_closing formed rest

/-! ## Statements -/

theorem value?_append
    {value : Text}
    (formed : EscapedBody '\x27' value)
    (rest : Text) :
    value? (quoted '\x27' value ++ (";".toList ++ rest)) = some ({ value }, rest) := by
  have body : body? (quoted '\x27' value ++ (";".toList ++ rest)) =
      some (value, ";".toList ++ rest) :=
    body?_eq_some_iff.mpr ⟨rfl, formed⟩
  have visible : trimStart (";".toList ++ rest) = ";".toList ++ rest :=
    trimStart_cons_of_visible (by decide) rest
  simp only [value?, body, visible, after?_append, Option.bind_eq_bind, Option.bind_some,
    Option.pure_def]

theorem array?_append
    {value tail token rest : Text}
    {comment : Option Text}
    (formed : EscapedBody '\x27' value)
    (visible : trimStart tail = tail)
    (ranked : ranking? tail = some (token, comment, rest)) :
    array? ("array(\n\t".toList ++ (quoted '\x27' value ++ (",\n\t".toList ++ tail))) =
      some (⟨value, priority? token, comment.map unescapeQuotes⟩, rest) := by
  have indent : Blank "\n\t".toList := by decide
  have opened (text : Text) :
      after? "array(".toList ("array(\n\t".toList ++ text) = some ("\n\t".toList ++ text) :=
    after?_eq_some_iff.mpr rfl
  have comma : after? ",".toList (trimStart (",\n\t".toList ++ tail)) =
      some ("\n\t".toList ++ tail) :=
    after?_eq_some_iff.mpr (trimStart_cons_of_visible (by decide) _)
  have literal (text : Text) :
      trimStart (quoted '\x27' value ++ text) = quoted '\x27' value ++ text :=
    trimStart_cons_of_visible (by decide) _
  have body (text : Text) : body? (quoted '\x27' value ++ text) = some (value, text) :=
    body?_eq_some_iff.mpr ⟨rfl, formed⟩
  simp only [array?, opened, trimStart_append_of_blank indent, literal, body, comma, visible,
    ranked, Option.bind_eq_bind, Option.bind_some, Option.pure_def]

/-- An entity that a statement can hold: both its key and its literals close where they should. -/
structure Legible (full : Text) (record : Entity.Record) : Prop where
  /-- The key fits between single quotes. -/
  key : '\x27' ∉ full
  /-- The value is the body of a literal. -/
  value : EscapedBody '\x27' record.value
  /-- The priority is not the word for a missing one. -/
  priority : record.priority ≠ some "null".toList
  /-- The comment becomes the body of a literal. -/
  comment : ∀ text, record.comment = some text → EscapedBody '\x27' (escapeQuotes text)

instance (full : Text) (record : Entity.Record) : Decidable (Legible full record) :=
  decidable_of_iff
    ('\x27' ∉ full ∧ EscapedBody '\x27' record.value ∧ record.priority ≠ some "null".toList ∧
      ∀ text, text ∈ record.comment → EscapedBody '\x27' (escapeQuotes text))
    ⟨fun ⟨key, value, priority, comment⟩ => ⟨key, value, priority, comment⟩,
      fun legible => ⟨legible.key, legible.value, legible.priority, legible.comment⟩⟩

/-- An entity with more than a value is an array, in which `null` stands for no priority. -/
theorem assigned_append
    {value : Text}
    {priority comment : Option Text}
    (many : ¬(priority = none ∧ comment = none))
    (rest : Text) :
    assigned ⟨value, priority, comment⟩ ++ (";".toList ++ rest) =
      "array(\n\t".toList ++ (quoted '\x27' value ++ (",\n\t".toList ++
        (escapeQuotes (priority.getD "null".toList) ++ (closing comment ++ rest)))) := by
  have word : escapeQuotes "null".toList = "null".toList := by decide
  cases priority <;> cases comment <;> simp_all [assigned, closing]

/-- What an entity is assigned is read back from in front of any rest. -/
theorem record_assigned
    {full : Text}
    {record : Entity.Record}
    (legible : Legible full record)
    (plain : ∀ text, record.priority = some text → PlainPriority text)
    (rest : Text) :
    (value? (assigned record ++ (";".toList ++ rest))).or
        (array? (assigned record ++ (";".toList ++ rest))) =
      some (record, rest) := by
  obtain ⟨value, priority, comment⟩ := record
  by_cases single : priority = none ∧ comment = none
  · obtain ⟨rfl, rfl⟩ := single
    rw [assigned, value?_append legible.value, Option.some_or]
  · have tokenPlain : PlainPriority (priority.getD "null".toList) := by
      cases priority with
      | none => exact ⟨by decide, by decide, by decide, by decide⟩
      | some text => exact plain text rfl
    have visible : trimStart (escapeQuotes (priority.getD "null".toList) ++
        (closing comment ++ rest)) =
          escapeQuotes (priority.getD "null".toList) ++ (closing comment ++ rest) := by
      rw [tokenPlain.endsVisible.trimStart_append, tokenPlain.trimStart_escapeQuotes]
    have named : priority? (escapeQuotes (priority.getD "null".toList)) = priority := by
      rw [priority?_escapeQuotes tokenPlain]
      cases priority with
      | none => rfl
      | some text =>
          have other : text ≠ "null".toList := fun same => legible.priority (congrArg some same)
          exact if_neg other
    have unescaped : (comment.map escapeQuotes).map unescapeQuotes = comment := by
      cases comment <;> simp
    have notValue (text : Text) : value? ("array(\n\t".toList ++ text) = none := by
      simp [value?, body?, after?]
    rw [assigned_append single, notValue, Option.none_or, array?_append legible.value visible
      (ranking?_escapeQuotes tokenPlain legible.comment rest), named, unescaped]

theorem trimStart_assigned
    (record : Entity.Record)
    (rest : Text) :
    trimStart (assigned record ++ rest) = assigned record ++ rest := by
  have quote : isBlank '\x27' = false := by decide
  have letter : isBlank 'a' = false := by decide
  obtain ⟨value, priority, comment⟩ := record
  cases priority <;> cases comment <;> simp [assigned, quoted, trimStart, quote, letter]

/-- A statement is read back from in front of any rest, up to its semicolon. -/
theorem statement?_append
    {locale : Text}
    {key : Entity.Key}
    {record : Entity.Record}
    (localePlain : '\x27' ∉ locale)
    (legible : Legible key.text record)
    (plain : ∀ text, record.priority = some text → PlainPriority text)
    (rest : Text) :
    statement? (statement locale key record ++ rest) =
      some (⟨locale, key.space, key.name, record⟩, '\n' :: rest) := by
  have spacePlain : '\x27' ∉ key.space := fun member =>
    legible.key (by simp [Entity.Key.text, member])
  have namePlain : '\x27' ∉ key.name := fun member =>
    legible.key (by simp [Entity.Key.text, member])
  have written : statement locale key record ++ rest =
      "$lang".toList ++ (index locale ++ (index key.space ++ (index key.name ++ (" = ".toList ++
        (assigned record ++ (";".toList ++ '\n' :: rest)))))) := by
    have ended : ";\n".toList ++ rest = ";".toList ++ '\n' :: rest := rfl
    unfold statement
    simp only [List.append_assoc, ended]
  have read {text : Text} (absent : '\x27' ∉ text) (behind : Text) :
      index? (index text ++ behind) = some (text, behind) :=
    index?_eq_some_iff.mpr ⟨rfl, absent⟩
  have space : Blank " ".toList := by decide
  have equals : after? "=".toList (trimStart (" = ".toList ++
      (assigned record ++ (";".toList ++ '\n' :: rest)))) =
        some (" ".toList ++ (assigned record ++ (";".toList ++ '\n' :: rest))) :=
    after?_eq_some_iff.mpr (trimStart_append_cons space (by decide) _)
  simp only [written, statement?, after?_append, read localePlain, read spacePlain,
    read namePlain, equals, trimStart_append_of_blank space, trimStart_assigned,
    record_assigned legible plain, Option.bind_eq_bind, Option.bind_some, Option.pure_def]

/-! ## Tables -/

@[simp] theorem entries_nil : entries [] = [] := by
  rw [entries]
  rfl

theorem entries_of_statement?
    {text rest : Text}
    {entry : Entry}
    (read : statement? text = some (entry, rest)) :
    entries text = entry :: entries rest := by
  rw [entries]
  split
  next other behind found =>
    rw [read] at found
    injection found with same
    injection same with first second
    rw [first, second]
  next nothing =>
    rw [read] at nothing
    exact absurd nothing (by simp)

theorem entries_cons_of_none
    {char : Char}
    {rest : Text}
    (unread : statement? (char :: rest) = none) :
    entries (char :: rest) = entries rest := by
  rw [entries]
  split
  next other behind found =>
    rw [unread] at found
    exact absurd found (by simp)
  next => rfl

/-- A statement begins with a dollar sign. -/
@[simp] theorem entries_cons_of_ne
    {char : Char}
    (other : char ≠ '$')
    (rest : Text) :
    entries (char :: rest) = entries rest := by
  apply entries_cons_of_none
  simp [statement?, after?, other]

theorem entries_header (rest : Text) : entries (header ++ rest) = entries rest := by
  have whole : header = "<?php\n\nglobal ".toList ++ '$' :: "lang;\n\n".toList := by decide
  have unread : statement? ('$' :: ("lang;\n\n".toList ++ rest)) = none := by
    simp [statement?, index?, after?]
  have declaration : entries ('$' :: ("lang;\n\n".toList ++ rest)) = entries rest := by
    rw [entries_cons_of_none unread]
    simp
  rw [whole]
  simpa using declaration

theorem entries_statements
    {locale : Text}
    {listing : List (Entity.Key × Entity.Record)}
    (localePlain : '\x27' ∉ locale)
    (storable : ∀ entry ∈ listing, Legible entry.1.text entry.2 ∧
      ∀ text, entry.2.priority = some text → PlainPriority text) :
    entries ((listing.flatMap fun (key, record) => statement locale key record) ++ footer) =
      listing.map fun (key, record) => ⟨locale, key.space, key.name, record⟩ := by
  induction listing with
  | nil =>
      have bare : footer = ['\n', '?', '>'] := rfl
      simp [bare]
  | cons entry listing ih =>
      obtain ⟨legible, plain⟩ := storable entry List.mem_cons_self
      have others := ih fun other member => storable other (List.mem_cons_of_mem entry member)
      rw [List.flatMap_cons, List.append_assoc,
        entries_of_statement? (statement?_append localePlain legible plain _),
        entries_cons_of_ne (by decide), others, List.map_cons]

/-! ## What the reader returns -/

theorem priority?_ne_null (token : Text) : priority? token ≠ some "null".toList := by
  unfold priority?
  dsimp only
  split
  · simp
  next named =>
    intro equal
    injection equal with unescaped
    have plain : '\x27' ∉ unescapeQuotes (trim token) := by
      rw [unescaped]
      decide
    rw [unescapeQuotes_eq_self plain] at unescaped
    exact named (.inr unescaped)

theorem comment_of_arrayEnd?
    {text comment rest : Text}
    (read : arrayEnd? text = some (some comment, rest)) :
    EscapedBody '\x27' comment := by
  unfold arrayEnd? at read
  split at read
  next found behind noted =>
    simp only [Option.some.injEq, Prod.mk.injEq] at read
    obtain ⟨rfl, rfl⟩ := read
    exact (commentEnd?_eq_some_iff.mp noted).1
  next => simp at read

theorem comment_of_ranking?
    {text token comment rest : Text}
    (read : ranking? text = some (token, some comment, rest)) :
    EscapedBody '\x27' comment := by
  obtain ⟨_, _, _, _, ended⟩ := ranking?_eq_some_iff.mp read
  exact comment_of_arrayEnd? ended

theorem legible_of_value?
    {full text rest : Text}
    {record : Entity.Record}
    (plain : '\x27' ∉ full)
    (read : value? text = some (record, rest)) :
    Legible full record := by
  simp only [value?, Option.bind_eq_bind, Option.bind_eq_some_iff, Option.pure_def,
    Option.some.injEq, Prod.mk.injEq, Prod.exists, body?_eq_some_iff] at read
  obtain ⟨value, _, ⟨-, formed⟩, _, -, rfl, -⟩ := read
  exact ⟨plain, formed, by simp, by simp⟩

theorem legible_of_array?
    {full text rest : Text}
    {record : Entity.Record}
    (plain : '\x27' ∉ full)
    (read : array? text = some (record, rest)) :
    Legible full record := by
  simp only [array?, Option.bind_eq_bind, Option.bind_eq_some_iff, Option.pure_def,
    Option.some.injEq, Prod.mk.injEq, Prod.exists, body?_eq_some_iff] at read
  obtain ⟨_, -, value, _, ⟨-, formed⟩, _, -, token, comment, _, ranked, rfl, -⟩ := read
  refine ⟨plain, formed, priority?_ne_null token, ?_⟩
  intro text unescaped
  obtain ⟨body, rfl, rfl⟩ := Option.map_eq_some_iff.mp unescaped
  have bodyFormed := comment_of_ranking? ranked
  rwa [escapeQuotes_unescapeQuotes bodyFormed]

theorem legible_of_statement?
    {text rest : Text}
    {entry : Entry}
    (read : statement? text = some (entry, rest)) :
    Legible entry.key entry.record := by
  simp only [statement?, Option.bind_eq_bind, Option.bind_eq_some_iff, Option.pure_def,
    Option.some.injEq, Prod.mk.injEq, Prod.exists, Option.or_eq_some_iff,
    index?_eq_some_iff] at read
  obtain ⟨_, -, _, _, -, space, _, ⟨-, spacePlain⟩, name, _, ⟨-, namePlain⟩, _, -, record, _,
    assigned, rfl, -⟩ := read
  have plain : '\x27' ∉ space ++ '.' :: name := by
    simp [spacePlain, namePlain]
  rcases assigned with single | ⟨-, many⟩
  · exact legible_of_value? plain single
  · exact legible_of_array? plain many

/-- Every entry is a statement that was read somewhere in the text. -/
theorem exists_statement?_of_mem_entries
    {text : Text}
    {entry : Entry}
    (member : entry ∈ entries text) :
    ∃ front behind, statement? front = some (entry, behind) := by
  fun_induction entries text with
  | case1 text found rest read ih =>
      rcases List.mem_cons.mp member with rfl | later
      · exact ⟨text, rest, read⟩
      · exact ih later
  | case2 => simp at member
  | case3 char rest unread ih => exact ih member

/-- Every entity of a table is a statement that was read somewhere in the text. -/
theorem exists_statement?_of_mem_read
    {text : Text}
    {entity : Text × Entity.Record}
    (member : entity ∈ (read text).entries) :
    ∃ front entry behind,
      statement? front = some (entry, behind) ∧ (entry.key, entry.record) = entity := by
  obtain ⟨entry, inside, same⟩ := List.mem_map.mp (Dictionary.mem_of_mem_ofList member)
  obtain ⟨front, behind, found⟩ := exists_statement?_of_mem_entries inside
  exact ⟨front, entry, behind, found, same⟩

/-- Whatever text is read, its entities are legible. -/
theorem legible_of_mem_read
    {text : Text}
    {entry : Text × Entity.Record}
    (member : entry ∈ (read text).entries) :
    Legible entry.1 entry.2 := by
  obtain ⟨_, _, _, found, rfl⟩ := exists_statement?_of_mem_read member
  exact legible_of_statement? found

/-! ## The round trip -/

/-- An entity that a table holds without loss. -/
structure Storable (full : Text) (record : Entity.Record) : Prop extends Legible full record where
  /-- The key has a namespace and a name. -/
  split : (Entity.Key.parse? full).isSome
  /-- The priority can be told from what is written around it. -/
  plain : ∀ text, record.priority = some text → PlainPriority text

instance (full : Text) (record : Entity.Record) : Decidable (Storable full record) :=
  decidable_of_iff
    (Legible full record ∧ (Entity.Key.parse? full).isSome ∧
      ∀ text, text ∈ record.priority → PlainPriority text)
    ⟨fun ⟨legible, split, plain⟩ => ⟨legible, split, plain⟩,
      fun storable => ⟨storable.toLegible, storable.split, storable.plain⟩⟩

/-- A table gives back what has a place in it, if every priority can be told from the rest. -/
theorem read_render_placed
    {locale : Text}
    {entities : Entity.Map}
    (localePlain : '\x27' ∉ locale)
    (plain : ∀ entry ∈ listed entities, Legible entry.1.text entry.2 ∧
      ∀ text, entry.2.priority = some text → PlainPriority text) :
    read (render locale entities) = placed entities := by
  rw [read, render, List.append_assoc, entries_header, entries_statements localePlain plain,
    List.map_map]
  apply Dictionary.ofList_eq_of_mem_iff
  exact fun entry => mem_map_listed

theorem read_render
    {locale : Text}
    {entities : Entity.Map}
    (localePlain : '\x27' ∉ locale)
    (storable : ∀ entry ∈ entities.entries, Storable entry.1 entry.2) :
    read (render locale entities) = entities := by
  have plain : ∀ entry ∈ listed entities, Legible entry.1.text entry.2 ∧
      ∀ text, entry.2.priority = some text → PlainPriority text := by
    rintro ⟨key, record⟩ member
    have inside := storable _ (Dictionary.get?_eq_some_iff.mp (mem_listed.mp member).2)
    exact ⟨inside.toLegible, inside.plain⟩
  rw [read_render_placed localePlain plain]
  exact placed_eq_self fun entry member => (storable entry member).split

end Statements

open Statements

/-- A table of statements gives back what can be stored in it, and leaves nothing out. -/
theorem read_render_of_storable
    {locale : Text}
    {entities : Entity.Map}
    (localePlain : '\x27' ∉ locale)
    (storable : ∀ entry ∈ entities.entries, Storable entry.1 entry.2) :
    read .php (render .php locale entities) = .ok entities ∧ skipped entities = [] := by
  constructor
  · exact congrArg Except.ok (Statements.read_render localePlain storable)
  · apply skipped_eq_nil
    intro entry member
    exact (storable entry member).split

/-- Quotes, commas and parentheses in a priority do not get in the way. -/
theorem read_render_of_storable_awkward :
    let entities : Entity.Map := Dictionary.ofList
      [("A.B".toList, ⟨"It\x5c\x27s".toList, some "f(\x27a\x27, \x27b\x27)".toList, none⟩),
        ("A.B.C".toList, ⟨"); //".toList, none, some "the rider\x27s array(\n);".toList⟩)]
    read .php (render .php "en_US".toList entities) = .ok entities ∧ skipped entities = [] :=
  read_render_of_storable (by decide) (by decide +kernel)

end Table
end Phrasebook
