import Phrasebook.Proofs.Table.Document
import Phrasebook.Proofs.Table.Statements
import Phrasebook.Proofs.Text.Backslashes

/-!
# What tables say

A table has a text for each key of its listing.  Among statements it is the meaning of the literal
that is assigned to the key, or that the assigned array begins with.  In a document it stands under
the locale, the namespace and the name, and the escapes of the literal have to be undone for it.

The writer of documents undoes the escapes of quotes only.  So the two formats say the same about a
key exactly if its value has no pair of backslashes.
-/

namespace Phrasebook

open Text

namespace Json

/-- The value to which a path of names leads through objects. -/
def at? : List Text → Json → Option Json
  | [], json => some json
  | name :: path, .object members => (member? name members).bind (at? path)
  | _ :: _, _ => none

/-- A text, or the text that an array begins with. -/
def leadingText? : Json → Option Text
  | .string text => some text
  | .array (.string text :: _) => some text
  | _ => none

end Json

namespace Table

variable {locale : Text} {entities : Entity.Map} {key : Entity.Key} {record : Entity.Record}

/-! ## Statements -/

namespace Statements

/-- What stands between the indices of a key and the literal of its value. -/
def lead (record : Entity.Record) : Text :=
  if record.priority = none ∧ record.comment = none then [] else "array(\n\t".toList

/-- A statement up to the literal of its value. -/
def assignment (locale : Text) (key : Entity.Key) (record : Entity.Record) : Text :=
  "$lang".toList ++ index locale ++ index key.space ++ index key.name ++ " = ".toList ++ lead record

/-- What the single-quoted literal at the beginning of a text stands for. -/
def meaning? (text : Text) : Option Text :=
  (body? text).map fun literal => meaning literal.1

theorem meaning?_quoted
    {body : Text}
    (formed : EscapedBody '\x27' body)
    (rest : Text) :
    meaning? (quoted '\x27' body ++ rest) = some (meaning body) := by
  rw [meaning?, body?_eq_some_iff.mpr ⟨rfl, formed⟩, Option.map_some]

/-- Whether single or in an array, the literal of the value comes first. -/
theorem exists_assigned_eq_append (record : Entity.Record) :
    ∃ behind, assigned record = lead record ++ (quoted '\x27' record.value ++ behind) := by
  obtain ⟨value, priority, comment⟩ := record
  have array (token rest : Text) :
      "array(\n\t".toList ++ quoted '\x27' value ++ ",\n\t".toList ++ token ++ rest ++
          "\n)".toList =
        "array(\n\t".toList ++
          (quoted '\x27' value ++ (",\n\t".toList ++ (token ++ (rest ++ "\n)".toList)))) := by
    simp only [List.append_assoc]
  cases priority with
  | some priority => exact ⟨_, array _ _⟩
  | none =>
      cases comment with
      | some comment => exact ⟨_, array _ _⟩
      | none => exact ⟨[], (List.append_nil _).symm⟩

theorem exists_statement_eq_append
    (locale : Text)
    (key : Entity.Key)
    (record : Entity.Record) :
    ∃ behind, statement locale key record =
      assignment locale key record ++ (quoted '\x27' record.value ++ (behind ++ ";\n".toList)) := by
  obtain ⟨behind, split⟩ := exists_assigned_eq_append record
  refine ⟨behind, ?_⟩
  unfold statement assignment
  rw [split]
  simp only [List.append_assoc]

/-- A listed key is assigned its literal behind the statements of the keys in front of it. -/
theorem exists_render_eq_append
    (locale : Text)
    {before after : List (Entity.Key × Entity.Record)}
    (split : listed entities = before ++ (key, record) :: after) :
    ∃ behind, render locale entities =
      header ++ (before.flatMap fun (key, record) => statement locale key record) ++
        assignment locale key record ++ (quoted '\x27' record.value ++ behind) := by
  obtain ⟨ending, written⟩ := exists_statement_eq_append locale key record
  refine ⟨ending ++ (";\n".toList ++
    ((after.flatMap fun (key, record) => statement locale key record) ++ footer)), ?_⟩
  simp only [render, split, List.flatMap_append, List.flatMap_cons, written, List.append_assoc]

end Statements

/-! ## Documents -/

namespace Document

/-- A path through a document leads to the value of its key. -/
theorem at?_ofMap
    (locale : Text)
    (entities : Entity.Map)
    (key : Entity.Key) :
    (ofMap locale entities).at? [locale, key.space, key.name] =
      valueAt? (grouped entities) key := by
  have spaces := Json.member?_map Json.object key.space (grouped entities)
  have names (found : List (Text × Json)) :
      Json.at? [key.name] (.object found) = Json.member? key.name found := by
    simp [Json.at?]
  rw [ofMap, Json.at?, Json.member?, if_pos rfl, Option.bind_some, Json.at?, spaces,
    Option.bind_map, valueAt?]
  congr 1
  funext found
  exact names found

theorem leadingText?_ofRecord (record : Entity.Record) :
    (ofRecord record).leadingText? = some (unescapeQuotes record.value) := by
  obtain ⟨value, priority, comment⟩ := record
  cases priority <;> cases comment <;> rfl

end Document

/-! ## Both formats -/

/-- The table in a format says a text for a key of its listing. -/
def Says
    (locale : Text)
    (entities : Entity.Map)
    (key : Entity.Key)
    (text : Text) :
    Format → Prop
  | .php => ∃ before record after behind, listed entities = before ++ (key, record) :: after ∧
      render .php locale entities =
        Statements.header ++
          (before.flatMap fun (key, record) => Statements.statement locale key record) ++
          Statements.assignment locale key record ++ behind ∧
      Statements.meaning? behind = some text
  | .json => ∃ document, Json.read? (render .json locale entities) = some document ∧
      (document.at? [locale, key.space, key.name]).bind Json.leadingText? = some text

theorem says_php_iff
    (locale : Text)
    (member : (key, record) ∈ listed entities)
    (formed : EscapedBody '\x27' record.value)
    (text : Text) :
    Says locale entities key text .php ↔ text = meaning record.value := by
  constructor
  · rintro ⟨before, found, after, behind, split, whole, meant⟩
    have same : record = found := by
      have present : (key, found) ∈ listed entities := by simp [split]
      exact Option.some.inj ((mem_listed.mp member).2.symm.trans (mem_listed.mp present).2)
    subst same
    obtain ⟨rest, written⟩ := Statements.exists_render_eq_append locale split
    rw [render, written] at whole
    rw [← List.append_cancel_left whole, Statements.meaning?_quoted formed] at meant
    exact (Option.some.inj meant).symm
  · rintro rfl
    obtain ⟨before, after, split⟩ := List.append_of_mem member
    obtain ⟨rest, written⟩ := Statements.exists_render_eq_append locale split
    exact ⟨before, record, after, _, split, written, Statements.meaning?_quoted formed rest⟩

theorem says_json_iff
    (locale : Text)
    (member : (key, record) ∈ listed entities)
    (text : Text) :
    Says locale entities key text .json ↔ text = unescapeQuotes record.value := by
  have stored : Document.valueAt? (Document.grouped entities) key =
      some (Document.ofRecord record) :=
    Document.valueAt?_grouped.mpr ⟨record, member, rfl⟩
  have found : ((Document.ofMap locale entities).at? [locale, key.space, key.name]).bind
      Json.leadingText? = some (unescapeQuotes record.value) := by
    rw [Document.at?_ofMap, stored, Option.bind_some, Document.leadingText?_ofRecord]
  have readBack : Json.read? (render .json locale entities) =
      some (Document.ofMap locale entities) :=
    Document.read?_render locale entities
  constructor
  · rintro ⟨document, read, said⟩
    rw [readBack] at read
    injection read with same
    rw [← same, found] at said
    exact (Option.some.inj said).symm
  · rintro rfl
    exact ⟨_, readBack, found⟩

/--
For a key of the listing, statements say the meaning of the value, and a document says the value
with its quotes unescaped.  The two formats say the same exactly if the value holds no pair of
backslashes.
-/
theorem says_json_iff_says_php
    (locale : Text)
    (member : (key, record) ∈ listed entities)
    (formed : EscapedBody '\x27' record.value) :
    (∀ text, Says locale entities key text .php ↔ text = meaning record.value) ∧
    (∀ text, Says locale entities key text .json ↔ text = unescapeQuotes record.value) ∧
    ((∀ text, Says locale entities key text .json ↔ Says locale entities key text .php) ↔
      ¬['\x5c', '\x5c'] <:+: record.value) := by
  have php := says_php_iff locale member formed
  have json := says_json_iff locale member
  refine ⟨php, json, ?_⟩
  rw [← unescapeQuotes_eq_meaning_iff formed]
  constructor
  · intro same
    exact (php _).mp ((same _).mp ((json _).mpr rfl))
  · intro same text
    rw [php, json, same]

/-- Single backslashes and escaped quotes mean the same in both, also behind one another. -/
theorem says_json_iff_says_php_folder :
    let key : Entity.Key := ⟨"A.B".toList, "C".toList⟩
    let record : Entity.Record :=
      ⟨"It\x5c's in C:\x5cdir\x5c'\x5c\n".toList, some "PR_HIGH".toList, some "it's".toList⟩
    let entities : Entity.Map := Dictionary.ofList
      [("A.D".toList, ⟨"\x5c\x5c".toList, none, none⟩), (key.text, record),
        ("none".toList, ⟨"left out".toList, none, none⟩)]
    (key, record) ∈ listed entities ∧ EscapedBody '\x27' record.value ∧
      (∀ text, Says "en_US".toList entities key text .php ↔ text = meaning record.value) ∧
      (∀ text, Says "en_US".toList entities key text .json ↔ text = unescapeQuotes record.value) ∧
      ((∀ text, Says "en_US".toList entities key text .json ↔
          Says "en_US".toList entities key text .php) ↔
        ¬['\x5c', '\x5c'] <:+: record.value) := by
  intro key record entities
  have member : (key, record) ∈ listed entities := mem_listed.mpr ⟨by decide, by decide⟩
  have formed : EscapedBody '\x27' record.value := by decide
  exact ⟨member, formed, says_json_iff_says_php "en_US".toList member formed⟩

/-- The pair of backslashes means one of them to PHP, and stays a pair in a document. -/
theorem not_says_json :
    let key : Entity.Key := ⟨"A".toList, "B".toList⟩
    let record : Entity.Record := ⟨"C:\x5c\x5cdir".toList, none, none⟩
    let entities : Entity.Map := Dictionary.ofList [(key.text, record)]
    EscapedBody '\x27' record.value ∧ (key, record) ∈ listed entities ∧
      Says "en_US".toList entities key "C:\x5cdir".toList .php ∧
      ¬Says "en_US".toList entities key "C:\x5cdir".toList .json := by
  intro key record entities
  have member : (key, record) ∈ listed entities := mem_listed.mpr ⟨by decide, by decide⟩
  have formed : EscapedBody '\x27' record.value := by decide
  refine ⟨formed, member, ?_, ?_⟩
  · rw [says_php_iff _ member formed]
    decide
  · rw [says_json_iff _ member]
    decide

end Table
end Phrasebook
