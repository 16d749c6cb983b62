/-!
# Text

A text is the list of its characters.  Everything the library reads or writes is a text; bytes
occur only where a file is stored or named, and `String` only where a program meets its terminal.
Characters are ordered by code point, hence texts lexicographically by code points, which is also
the order of their UTF-8 encodings.

Texts are cut at separators and put together again in the same way as other lists, such as the
bytes of a path.
-/

namespace Phrasebook

/-- A text is the list of its characters. -/
abbrev Text : Type :=
  List Char

namespace Text

/-- The decimal digits of a natural number. -/
def ofNat (number : Nat) : Text :=
  (Nat.toDigits 10 number)

/-- The texts written one after the other with a separator between neighbours. -/
def joinWith {Item : Type} (separator : List Item) : List (List Item) → List Item
  | [] => []
  | [last] => last
  | first :: next :: rest => first ++ separator ++ joinWith separator (next :: rest)

/-- The pieces of a text between the occurrences of a separating character. -/
def splitAt {Item : Type} [DecidableEq Item] (separator : Item) : List Item → List (List Item)
  | [] => [[]]
  | char :: rest =>
      if char = separator then
        [] :: splitAt separator rest
      else
        match splitAt separator rest with
        | [] => [[char]]
        | piece :: pieces => (char :: piece) :: pieces

/-- The parts in front of and behind the last occurrence of a character. -/
def splitLast? {Item : Type} [DecidableEq Item] (separator : Item) :
    List Item → Option (List Item × List Item)
  | [] => none
  | char :: rest =>
      match splitLast? separator rest with
      | some (front, behind) => some (char :: front, behind)
      | none => if char = separator then some ([], rest) else none

/-- The text without its ASCII capitals: each of them becomes its small letter. -/
def toLower (text : Text) : Text :=
  text.map Char.toLower

/-- Spaces are added in front until the text has the given number of characters. -/
def padLeft (width : Nat) (text : Text) : Text :=
  List.replicate (width - text.length) ' ' ++ text

/-- Spaces are added behind until the text has the given number of characters. -/
def padRight (width : Nat) (text : Text) : Text :=
  text ++ List.replicate (width - text.length) ' '

/-- The rest of a text behind a given beginning, if the text begins with it. -/
def after? : Text → Text → Option Text
  | [], text => some text
  | _ :: _, [] => none
  | expected :: beginning, char :: rest =>
      if char = expected then after? beginning rest else none

/-- The rest behind a beginning is what has to be appended to get the text. -/
theorem after?_eq_some_iff
    {beginning text rest : Text} :
    after? beginning text = some rest ↔ text = beginning ++ rest := by
  induction beginning generalizing text with
  | nil => simp [after?]
  | cons expected beginning ih =>
      cases text with
      | nil => simp [after?]
      | cons char text =>
          by_cases same : char = expected
          · simp [after?, same, ih]
          · simp [after?, same]

/-- A beginning put in front of a text is found there. -/
@[simp]
theorem after?_append (beginning rest : Text) :
    after? beginning (beginning ++ rest) = some rest :=
  after?_eq_some_iff.mpr rfl

section Pieces

variable {Item : Type} [DecidableEq Item]

/-- A text without the character cannot be split at it. -/
theorem splitLast?_eq_none_iff
    {separator : Item}
    {text : List Item} :
    splitLast? separator text = none ↔ separator ∉ text := by
  induction text with
  | nil => simp [splitLast?]
  | cons char rest ih =>
      unfold splitLast?
      cases split : splitLast? separator rest with
      | none =>
          have absent := ih.mp split
          by_cases same : char = separator
          · simp [same]
          · simp [same, absent, Ne.symm same]
      | some parts =>
          have present : separator ∈ rest := by
            by_cases member : separator ∈ rest
            · exact member
            · rw [ih.mpr member] at split
              simp at split
          simp [present]

/-- The part behind the last occurrence is the longest one without the character. -/
theorem splitLast?_eq_some_iff
    {separator : Item}
    {text front behind : List Item} :
    splitLast? separator text = some (front, behind) ↔
      text = front ++ separator :: behind ∧ separator ∉ behind := by
  induction text generalizing front behind with
  | nil => simp [splitLast?]
  | cons char rest ih =>
      unfold splitLast?
      cases split : splitLast? separator rest with
      | none =>
          have absent := splitLast?_eq_none_iff.mp split
          cases front with
          | nil =>
              by_cases same : char = separator
              · simp only [same, if_true, Option.some.injEq, Prod.mk.injEq, true_and,
                  List.nil_append, List.cons.injEq]
                constructor
                · rintro rfl
                  exact ⟨rfl, absent⟩
                · exact fun whole => whole.1
              · simp [same]
          | cons head front =>
              constructor
              · intro equal
                by_cases same : char = separator <;> simp [same] at equal
              · rintro ⟨whole, _⟩
                simp only [List.cons_append, List.cons.injEq] at whole
                exact absurd (by simp [whole.2]) absent
      | some parts =>
          obtain ⟨inner, last⟩ := parts
          have inside := ih.mp split
          cases front with
          | nil =>
              simp only [Option.some.injEq, Prod.mk.injEq, List.nil_append, List.cons.injEq]
              constructor
              · rintro ⟨impossible, _⟩
                simp at impossible
              · rintro ⟨⟨_, rfl⟩, absent⟩
                exact absurd (by simp [inside.1]) absent
          | cons head front =>
              constructor
              · intro equal
                simp only [Option.some.injEq, Prod.mk.injEq, List.cons.injEq] at equal
                obtain ⟨⟨rfl, rfl⟩, rfl⟩ := equal
                simp [inside.1, inside.2]
              · rintro ⟨whole, absent⟩
                simp only [List.cons_append, List.cons.injEq] at whole
                obtain ⟨rfl, whole⟩ := whole
                have other := ih.mpr ⟨whole, absent⟩
                rw [split] at other
                simp only [Option.some.injEq, Prod.mk.injEq] at other
                simp [other]

/-- There is no separator to split at in an empty text, so it is one empty piece. -/
@[simp]
theorem splitAt_nil (separator : Item) : splitAt separator [] = [[]] :=
  rfl

/-- A text always has at least one piece. -/
theorem splitAt_ne_nil (separator : Item) (text : List Item) : splitAt separator text ≠ [] := by
  cases text with
  | nil => simp
  | cons char rest =>
      unfold splitAt
      split
      · simp
      · split <;> simp

/-- No piece of a text holds the separator. -/
theorem separator_not_mem
    {separator : Item}
    {text piece : List Item}
    (member : piece ∈ splitAt separator text) :
    separator ∉ piece := by
  induction text generalizing piece with
  | nil =>
      rw [splitAt_nil, List.mem_singleton] at member
      simp [member]
  | cons char rest ih =>
      unfold splitAt at member
      split at member
      next =>
        rcases List.mem_cons.mp member with first | later
        · simp [first]
        · exact ih later
      next other =>
        cases pieces : splitAt separator rest with
        | nil => exact absurd pieces (splitAt_ne_nil separator rest)
        | cons head others =>
            rw [pieces] at member ih
            rcases List.mem_cons.mp member with first | later
            · subst first
              rw [List.mem_cons, not_or]
              exact ⟨Ne.symm other, ih List.mem_cons_self⟩
            · exact ih (List.mem_cons_of_mem head later)

/-- Writing the separator between the pieces of a text gives the text back. -/
theorem joinWith_splitAt (separator : Item) (text : List Item) :
    joinWith [separator] (splitAt separator text) = text := by
  induction text with
  | nil => rfl
  | cons char rest ih =>
      unfold splitAt
      split
      next same =>
        subst same
        cases pieces : splitAt char rest with
        | nil => exact absurd pieces (splitAt_ne_nil char rest)
        | cons piece others => simpa [joinWith, pieces] using ih
      next =>
        cases pieces : splitAt separator rest with
        | nil => exact absurd pieces (splitAt_ne_nil separator rest)
        | cons piece others =>
            rw [pieces] at ih
            cases others with
            | nil => simpa [joinWith] using ih
            | cons other others => simpa [joinWith] using ih

end Pieces

end Text
end Phrasebook
