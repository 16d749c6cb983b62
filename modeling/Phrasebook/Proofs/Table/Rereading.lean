import Phrasebook.Proofs.Table.Document
import Phrasebook.Proofs.Table.Statements

/-!
# Reading a table that was read before

A table that is read from any text, written out and read once more holds what it held, as far as
its keys can be split.  So the readers return nothing that the writers could not express.

For statements this rests on the priorities.  The reader takes as few characters as it can, so none
of them closes the array, and unescaping brings no new neighbours together.  For documents it rests
on the values, which come escaped from the reader.
-/

namespace Phrasebook
namespace Table

open Text

namespace Statements

/-! ## Priorities that are read -/

@[simp] theorem arrayEnd?_parenthesis (rest : Text) :
    arrayEnd? (");".toList ++ rest) = some (none, rest) := by
  have noteless : commentEnd? (");".toList ++ rest) = none := by
    simp [commentEnd?, after?]
  rw [arrayEnd?, noteless, after?_append, Option.map_some]

theorem unclosed_of_ranking?
    {text token rest : Text}
    {comment : Option Text}
    (read : ranking? text = some (token, comment, rest)) :
    ¬[')', ';'] <:+: token := by
  rintro ⟨front, behind, rfl⟩
  obtain ⟨tail, -, -, noEnd, -⟩ := ranking?_eq_some_iff.mp read
  have ended := noEnd ([')', ';'] ++ behind) ⟨front, by simp⟩ (by simp)
  have visible : trimStart ([')', ';'] ++ behind ++ tail) = ");".toList ++ (behind ++ tail) :=
    trimStart_cons_of_visible (by decide) _
  rw [visible, arrayEnd?_parenthesis] at ended
  exact absurd ended (by simp)

theorem trim_unescapeQuotes
    {text : Text}
    (trimmed : trim text = text) :
    trim (unescapeQuotes text) = unescapeQuotes text := by
  obtain ⟨first, last⟩ := trim_eq_self_iff.mp trimmed
  rw [trim_eq_self_iff, trimStart_eq_self_iff, trimEnd_eq_self_iff]
  constructor
  · intro char rest unescaped
    by_cases quote : char = '\x27'
    · rw [quote]
      decide
    · obtain ⟨tail, whole, -⟩ := eq_cons_of_unescapeQuotes quote unescaped
      exact trimStart_eq_self_iff.mp first char tail whole
  · intro front char unescaped
    have same := getLast?_unescapeQuotes text
    rw [unescaped, List.getLast?_concat] at same
    obtain ⟨earlier, whole⟩ := List.getLast?_eq_some_iff.mp same.symm
    exact trimEnd_eq_self_iff.mp last earlier char whole

theorem trim_isInfix (text : Text) : trim text <:+: text :=
  (trimEnd_isBeginning (trimStart text)).isInfix.trans (trimStart_suffix text).isInfix

/-- A priority of the reader can be told from what is written around it. -/
theorem plainPriority_of_ranking?
    {text token rest priority : Text}
    {comment : Option Text}
    (read : ranking? text = some (token, comment, rest))
    (named : priority? token = some priority) :
    PlainPriority priority := by
  unfold priority? at named
  dsimp only at named
  split at named
  next => simp at named
  next filled =>
    injection named with same
    subst same
    rw [not_or] at filled
    obtain ⟨tail, -, oneLine, -, -⟩ := ranking?_eq_some_iff.mp read
    refine ⟨?_, trim_unescapeQuotes (trim_trim token), ?_, ?_⟩
    · intro nothing
      have ending := getLast?_unescapeQuotes (trim token)
      rw [nothing, List.getLast?_nil] at ending
      exact filled.1 (List.getLast?_eq_none_iff.mp ending.symm)
    · intro member
      exact oneLine (mem_of_mem_trim (mem_of_mem_unescapeQuotes member))
    · intro closed
      have before := infix_of_unescapeQuotes (by decide) (by decide) closed
      exact unclosed_of_ranking? read (before.trans (trim_isInfix token))

theorem plainPriority_of_statement?
    {text rest priority : Text}
    {entry : Entry}
    (read : statement? text = some (entry, rest))
    (present : entry.record.priority = some priority) :
    PlainPriority priority := by
  simp only [statement?, Option.bind_eq_bind, Option.bind_eq_some_iff, Option.pure_def,
    Option.some.injEq, Prod.mk.injEq, Prod.exists, Option.or_eq_some_iff] at read
  obtain ⟨_, -, _, _, -, _, _, -, _, _, -, _, -, record, _, assigned, rfl, -⟩ := read
  rcases assigned with single | ⟨-, many⟩
  · simp only [value?, Option.bind_eq_bind, Option.bind_eq_some_iff, Option.pure_def,
      Option.some.injEq, Prod.mk.injEq] at single
    obtain ⟨_, -, _, -, rfl, -⟩ := single
    exact absurd present (by simp)
  · simp only [array?, Option.bind_eq_bind, Option.bind_eq_some_iff, Option.pure_def,
      Option.some.injEq, Prod.mk.injEq, Prod.exists] at many
    obtain ⟨_, -, _, _, -, _, -, token, comment, _, ranked, rfl, -⟩ := many
    exact plainPriority_of_ranking? ranked present

/-- What was read as statements can be written as statements. -/
theorem read_render_read_text
    {locale : Text}
    (localePlain : '\x27' ∉ locale)
    (text : Text) :
    read (render locale (read text)) = placed (read text) := by
  apply read_render_placed localePlain
  rintro ⟨key, record⟩ member
  have inside := Dictionary.get?_eq_some_iff.mp (mem_listed.mp member).2
  refine ⟨legible_of_mem_read inside, ?_⟩
  obtain ⟨_, entry, _, found, same⟩ := exists_statement?_of_mem_read inside
  injection same with _ same
  intro priority present
  rw [← same] at present
  exact plainPriority_of_statement? found present

end Statements

namespace Document

/-! ## Values that are read -/

/-- The value of a record that is read has had its quotes escaped. -/
theorem requoted_of_recordOf
    {key : Text}
    {value : Json}
    {record : Entity.Record}
    (read : recordOf key value = .ok record) :
    requoted record = record := by
  unfold recordOf at read
  split at read
  next text =>
    injection read with same
    rw [← same, requoted, unescapeQuotes_escapeQuotes]
  next => simp at read
  next first rest =>
    simp only [Outcome.bind_eq_ok_iff, pure, Except.pure, Except.ok.injEq] at read
    obtain ⟨text, -, priority, -, comment, -, rfl⟩ := read
    rw [requoted, unescapeQuotes_escapeQuotes]
  next => simp at read

theorem requoted_of_entitiesOfSpace
    {space : Text × Json}
    {entities : List (Text × Entity.Record)}
    (read : entitiesOfSpace space = .ok entities)
    {entity : Text × Entity.Record}
    (member : entity ∈ entities) :
    requoted entity.2 = entity.2 := by
  unfold entitiesOfSpace at read
  split at read
  next space names =>
    obtain ⟨named, -, found⟩ := (Outcome.mem_iff_of_mapM read entity).mp member
    simp only [entityOf, Outcome.bind_eq_ok_iff, pure, Except.pure, Except.ok.injEq] at found
    obtain ⟨record, readRecord, rfl⟩ := found
    exact requoted_of_recordOf readRecord
  next => simp at read

theorem requoted_of_entitiesOfLocale
    {locale : Text × Json}
    {entities : List (Text × Entity.Record)}
    (read : entitiesOfLocale locale = .ok entities)
    {entity : Text × Entity.Record}
    (member : entity ∈ entities) :
    requoted entity.2 = entity.2 := by
  unfold entitiesOfLocale at read
  split at read
  next spaces =>
    obtain ⟨lists, readAll, rfl⟩ := Outcome.map_eq_ok_iff.mp read
    obtain ⟨list, listed, inside⟩ := List.mem_flatten.mp member
    obtain ⟨space, -, found⟩ := (Outcome.mem_iff_of_mapM readAll list).mp listed
    exact requoted_of_entitiesOfSpace found inside
  next => simp at read

/-- What a document holds comes with its quotes escaped. -/
theorem requoted_of_toMap
    {document : Json}
    {entities : Entity.Map}
    (read : toMap document = .ok entities)
    {full : Text}
    {record : Entity.Record}
    (present : entities.get? full = some record) :
    requoted record = record := by
  unfold toMap at read
  split at read
  next locales =>
    simp only [Outcome.bind_eq_ok_iff, pure, Except.pure, Except.ok.injEq] at read
    obtain ⟨lists, readAll, rfl⟩ := read
    have member := Dictionary.mem_of_mem_ofList (Dictionary.get?_eq_some_iff.mp present)
    obtain ⟨list, listed, inside⟩ := List.mem_flatten.mp member
    obtain ⟨locale, -, found⟩ := (Outcome.mem_iff_of_mapM readAll list).mp listed
    exact requoted_of_entitiesOfLocale found inside
  next => simp at read

/-- What was read from a document can be written as a document. -/
theorem read_render_of_read
    (locale : Text)
    {text : Text}
    {entities : Entity.Map}
    (readable : read text = .ok entities) :
    read (render locale entities) = .ok (placed entities) := by
  refine read_render_of_requoted locale fun full => ?_
  unfold read at readable
  split at readable
  next => simp at readable
  next document =>
    cases present : entities.get? full with
    | none => rfl
    | some record => rw [Option.map_some, requoted_of_toMap readable present]

end Document

/--
Whatever text is read as a table, writing the entities out and reading them again gives those whose
keys can be split, with nothing changed.
-/
theorem read_render_read
    {format : Format}
    {locale text : Text}
    {entities : Entity.Map}
    (localePlain : format = .php → '\x27' ∉ locale)
    (readable : read format text = .ok entities) :
    read format (render format locale entities) =
      .ok (entities.filter fun full => (Entity.Key.parse? full).isSome) := by
  cases format with
  | php =>
      injection readable with same
      subst same
      exact congrArg Except.ok (Statements.read_render_read_text (localePlain rfl) text)
  | json => exact Document.read_render_of_read locale readable

/--
A table that was edited by hand: a name with a dot, keys without a namespace or a name, quotes in a
priority, also behind a comma, and a statement without an end.
-/
theorem read_render_read_edited :
    let text :=
      ("$lang['de']['Page']['ss.TITLE']='It\x5c's' ; $lang['']['X'][''] = 'lost';\n" ++
        "$lang['']['']['ALONE'] = array('a', f('x') , 'It\x5c's' );\n" ++
        "$lang['de']['Page']['LAST'] = array( 'b' , g(1,\x5c'2') );\n" ++
        "$lang['de']['Page']['OPEN'] = 'c").toList
    let entities : Entity.Map := Dictionary.ofList
      [("Page.ss.TITLE".toList, ⟨"It\x5c's".toList, none, none⟩),
        ("X.".toList, ⟨"lost".toList, none, none⟩),
        (".ALONE".toList, ⟨"a".toList, some "f('x')".toList, some "It's".toList⟩),
        ("Page.LAST".toList, ⟨"b".toList, some "g(1,'2')".toList, none⟩)]
    '\x27' ∉ "en_US".toList ∧ read .php text = .ok entities ∧
      read .php (render .php "en_US".toList entities) =
        .ok (entities.filter fun full => (Entity.Key.parse? full).isSome) := by
  intro text entities
  have readable : read .php text = .ok entities := congrArg Except.ok (by decide +kernel)
  exact ⟨by decide, readable, read_render_read (fun _ => by decide) readable⟩

end Table
end Phrasebook
