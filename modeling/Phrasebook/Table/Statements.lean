import Phrasebook.Table.Listing
import Phrasebook.Text.Blank
import Phrasebook.Text.Quoted

/-!
# Master tables as PHP statements

A table assigns to each entity its value, or an array of value, priority and comment:

    $lang['en_US']['Page']['TITLE'] = 'Title';
    $lang['en_US']['Page']['SAVE'] = array(
        'Save',
        PR_HIGH,
        'Label of the button'
    );

Values are written as they are kept.  Single quotes in priorities and comments are escaped, and a
missing priority in front of a comment is written `null`.

The reader finds these statements anywhere in a text and takes blanks liberally.  A priority is as
short as possible: it ends, on its line, in front of the first place from which an optional comment
and the closing parenthesis can be read.
-/

namespace Phrasebook
namespace Table
namespace Statements

open Text

/-- The first lines of a table. -/
def header : Text :=
  "<?php\n\nglobal $lang;\n\n".toList

/-- The last lines of a table. -/
def footer : Text :=
  "\n?>".toList

/-- An index into the table, with its brackets and quotes. -/
def index (text : Text) : Text :=
  "['".toList ++ text ++ "']".toList

/-- What an entity is assigned. -/
def assigned (record : Entity.Record) : Text :=
  match record.priority, record.comment with
  | none, none => quoted '\x27' record.value
  | priority, comment =>
      let ranked :=
        "array(\n\t".toList ++ quoted '\x27' record.value ++ ",\n\t".toList ++
          (priority.map escapeQuotes).getD "null".toList
      let noted :=
        match comment with
        | none => []
        | some comment => ",\n\t".toList ++ quoted '\x27' (escapeQuotes comment)
      ranked ++ noted ++ "\n)".toList

/-- The statement that assigns an entity. -/
def statement (locale : Text) (key : Entity.Key) (record : Entity.Record) : Text :=
  "$lang".toList ++ index locale ++ index key.space ++ index key.name ++ " = ".toList ++
    assigned record ++ ";\n".toList

/-- The table of a map of entities. -/
def render (locale : Text) (entities : Entity.Map) : Text :=
  header ++ ((listed entities).flatMap fun (key, record) => statement locale key record) ++ footer

/-- A statement as it was read. -/
structure Entry where
  /-- The first index. -/
  locale : Text
  /-- The second index. -/
  space : Text
  /-- The third index. -/
  name : Text
  /-- What is assigned. -/
  record : Entity.Record
  deriving DecidableEq

/-- An index without single quotes, and the rest behind its bracket. -/
def index? (text : Text) : Option (Text × Text) := do
  let rest ← after? "['".toList text
  let (body, rest) ← plainBody? '\x27' rest
  let rest ← after? "]".toList rest
  return (body, rest)

/-- The body of a single-quoted literal, and the rest behind it. -/
def body? (text : Text) : Option (Text × Text) := do
  let rest ← after? "'".toList text
  escapedBody? '\x27' rest

/-- The comment in front of the end of an array, and the rest behind the statement. -/
def commentEnd? (text : Text) : Option (Text × Text) := do
  let rest ← after? ",".toList text
  let (comment, rest) ← body? (trimStart rest)
  let rest ← after? ");".toList (trimStart rest)
  return (comment, rest)

/-- The end of an array, with or without a comment, and the rest behind the statement. -/
def arrayEnd? (text : Text) : Option (Option Text × Text) :=
  match commentEnd? text with
  | some (comment, rest) => some (some comment, rest)
  | none => (after? ");".toList text).map fun rest => (none, rest)

/-- The shortest priority with an end of an array behind it, and the rest behind the statement. -/
def ranking? (text : Text) : Option (Text × Option Text × Text) :=
  match arrayEnd? (trimStart text) with
  | some (comment, rest) => some ([], comment, rest)
  | none =>
      match text with
      | [] => none
      | char :: rest =>
          if char = '\n' then
            none
          else
            (ranking? rest).map fun (priority, behind) => (char :: priority, behind)

/-- A priority without outer blanks; none if it is empty or the word `null`. -/
def priority? (token : Text) : Option Text :=
  let token := trim token
  if token = [] ∨ token = "null".toList then none else some (unescapeQuotes token)

/-- A single value up to its semicolon. -/
def value? (text : Text) : Option (Entity.Record × Text) := do
  let (value, rest) ← body? text
  let rest ← after? ";".toList (trimStart rest)
  return ({ value }, rest)

/-- An array of value, priority and perhaps a comment, up to its semicolon. -/
def array? (text : Text) : Option (Entity.Record × Text) := do
  let rest ← after? "array(".toList text
  let (value, rest) ← body? (trimStart rest)
  let rest ← after? ",".toList (trimStart rest)
  let (priority, comment, rest) ← ranking? (trimStart rest)
  return ({ value, priority := priority? priority, comment := comment.map unescapeQuotes }, rest)

/-- The statement at the beginning of a text, and the rest behind it. -/
def statement? (text : Text) : Option (Entry × Text) := do
  let rest ← after? "$lang".toList text
  let (locale, rest) ← index? rest
  let (space, rest) ← index? rest
  let (name, rest) ← index? rest
  let rest ← after? "=".toList (trimStart rest)
  let (record, rest) ← (value? (trimStart rest)).or (array? (trimStart rest))
  return (⟨locale, space, name, record⟩, rest)

/-- What is behind a beginning is no longer than the text. -/
theorem length_after?
    {beginning text rest : Text}
    (read : after? beginning text = some rest) :
    rest.length + beginning.length = text.length := by
  simp [after?_eq_some_iff.mp read, Nat.add_comm]

/-- What is behind an index is shorter than the text. -/
theorem length_index?
    {text body rest : Text}
    (read : index? text = some (body, rest)) :
    rest.length < text.length := by
  simp only [index?, Option.bind_eq_bind, Option.bind_eq_some_iff, Option.pure_def,
    Option.some.injEq, Prod.mk.injEq] at read
  obtain ⟨inside, opened, ⟨_, behind⟩, quote, _, closed, -, rfl⟩ := read
  have := length_after? opened
  have := length_after? closed
  have whole := congrArg List.length (eq_append_of_plainBody? quote).1
  simp only [List.length_append, List.length_cons] at *
  omega

/-- What is behind a body is shorter than the text. -/
theorem length_body?
    {text body rest : Text}
    (read : body? text = some (body, rest)) :
    rest.length < text.length := by
  simp only [body?, Option.bind_eq_bind, Option.bind_eq_some_iff] at read
  obtain ⟨inside, opened, quote⟩ := read
  have := length_after? opened
  have whole := congrArg List.length (eq_append_of_escapedBody? quote).1
  simp only [List.length_append, List.length_cons] at *
  omega

/-- What is behind the end of an array is no longer than the text. -/
theorem length_arrayEnd?
    {text rest : Text}
    {comment : Option Text}
    (read : arrayEnd? text = some (comment, rest)) :
    rest.length ≤ text.length := by
  unfold arrayEnd? at read
  split at read
  next literal behind inside =>
    simp only [Option.some.injEq, Prod.mk.injEq] at read
    obtain ⟨-, rfl⟩ := read
    simp only [commentEnd?, Option.bind_eq_bind, Option.bind_eq_some_iff, Option.pure_def,
      Option.some.injEq, Prod.mk.injEq] at inside
    obtain ⟨behindComma, comma, ⟨_, behindBody⟩, body, _, closed, -, rfl⟩ := inside
    have := length_after? comma
    have := length_body? body
    have := length_after? closed
    have := length_trimStart_le behindComma
    have := length_trimStart_le behindBody
    simp only at *
    omega
  next =>
    obtain ⟨_, closed, equal⟩ := Option.map_eq_some_iff.mp read
    simp only [Prod.mk.injEq] at equal
    obtain ⟨-, rfl⟩ := equal
    have := length_after? closed
    omega

/-- What is behind priority and comment is no longer than the text. -/
theorem length_ranking?
    {text rest : Text}
    {priority : Text}
    {comment : Option Text}
    (read : ranking? text = some (priority, comment, rest)) :
    rest.length ≤ text.length := by
  induction text generalizing priority with
  | nil =>
      unfold ranking? at read
      split at read
      next inside =>
        simp only [Option.some.injEq, Prod.mk.injEq] at read
        obtain ⟨-, -, rfl⟩ := read
        exact Nat.le_trans (length_arrayEnd? inside) (length_trimStart_le [])
      · simp at read
  | cons char text ih =>
      unfold ranking? at read
      split at read
      next inside =>
        simp only [Option.some.injEq, Prod.mk.injEq] at read
        obtain ⟨-, -, rfl⟩ := read
        exact Nat.le_trans (length_arrayEnd? inside) (length_trimStart_le (char :: text))
      · simp only at read
        split at read
        · simp at read
        · obtain ⟨⟨_, _⟩, inside, equal⟩ := Option.map_eq_some_iff.mp read
          simp only [Prod.mk.injEq] at equal
          obtain ⟨-, rfl, rfl⟩ := equal
          exact Nat.le_succ_of_le (ih inside)

/-- What is behind a single value is no longer than the text. -/
theorem length_value?
    {text rest : Text}
    {record : Entity.Record}
    (read : value? text = some (record, rest)) :
    rest.length ≤ text.length := by
  simp only [value?, Option.bind_eq_bind, Option.bind_eq_some_iff, Option.pure_def,
    Option.some.injEq, Prod.mk.injEq] at read
  obtain ⟨⟨_, behindBody⟩, body, _, closed, -, rfl⟩ := read
  have := length_body? body
  have := length_after? closed
  have := length_trimStart_le behindBody
  simp only at *
  omega

/-- What is behind an array is no longer than the text. -/
theorem length_array?
    {text rest : Text}
    {record : Entity.Record}
    (read : array? text = some (record, rest)) :
    rest.length ≤ text.length := by
  simp only [array?, Option.bind_eq_bind, Option.bind_eq_some_iff, Option.pure_def,
    Option.some.injEq, Prod.mk.injEq] at read
  obtain ⟨behindParen, paren, ⟨_, behindBody⟩, body, behindComma, comma, ⟨_, _, _⟩, ranking, -,
    rfl⟩ := read
  have := length_after? paren
  have := length_trimStart_le behindParen
  have := length_body? body
  have := length_trimStart_le behindBody
  have := length_after? comma
  have := length_trimStart_le behindComma
  have := length_ranking? ranking
  simp only at *
  omega

/-- A statement takes at least one character. -/
theorem length_statement?
    {text rest : Text}
    {entry : Entry}
    (read : statement? text = some (entry, rest)) :
    rest.length < text.length := by
  simp only [statement?, Option.bind_eq_bind, Option.bind_eq_some_iff, Option.pure_def,
    Option.some.injEq, Prod.mk.injEq, Option.or_eq_some_iff] at read
  obtain ⟨_, begun, ⟨_, _⟩, first, ⟨_, _⟩, second, ⟨_, behindIndex⟩, third, behindEqual, equals,
    ⟨_, _⟩, assigned, -, rfl⟩ := read
  have := length_after? begun
  have := length_index? first
  have := length_index? second
  have := length_index? third
  have := length_trimStart_le behindIndex
  have := length_after? equals
  have := length_trimStart_le behindEqual
  rcases assigned with single | ⟨_, many⟩
  · have := length_value? single
    simp only at *
    omega
  · have := length_array? many
    simp only at *
    omega

/-- The statements of a text from left to right, none inside another. -/
def entries (text : Text) : List Entry :=
  match _found : statement? text with
  | some (entry, rest) => entry :: entries rest
  | none =>
      match text with
      | [] => []
      | _ :: rest => entries rest
termination_by text.length
decreasing_by
  · exact length_statement? (by assumption)
  · simp

/-- The full key of a statement. -/
def Entry.key (entry : Entry) : Text :=
  entry.space ++ '.' :: entry.name

/-- The entities that a text assigns, of which later ones win. -/
def read (text : Text) : Entity.Map :=
  Dictionary.ofList ((entries text).map fun entry => (entry.key, entry.record))

end Statements
end Table
end Phrasebook
