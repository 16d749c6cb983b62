import Phrasebook.CallSite
import Phrasebook.Proofs.Text.Escaping
import Phrasebook.Proofs.Text.Trimming

/-!
# The grammar of call sites

A call is spelled as the name of the function, a parenthesis, the literals of key and value, and
perhaps a priority and the literal of a comment, with blanks wherever they may stand.  The grammar
is ambiguous: blanks may belong to several parts, and a third argument may be a priority or a
comment.

The reader settles each choice, and the module shows that it loses nothing by that.  What it reads
is spelled by the grammar, and it reads something in front of any rest as soon as the grammar
spells anything there.
-/

namespace Phrasebook
namespace CallSite

open Text

/-- A comma, blanks at its sides, and a token without commas and closing parentheses. -/
def PriorityText (text : Text) : Prop :=
  ∃ before behind token, Blank before ∧ Blank behind ∧
    (∀ char ∈ token, char ≠ ',' ∧ char ≠ ')') ∧ text = before ++ ',' :: (behind ++ token)

/-- What is written for a comment: nothing, or a comma and a literal with blanks around. -/
inductive CommentText : Option Text → Text → Prop
  | missing : CommentText none []
  | present {before behind literal : Text} :
      Blank before →
      Blank behind →
      EscapedLiteral literal →
      CommentText (some literal) (before ++ ',' :: (behind ++ literal))

/-- The text is a call of the function with the arguments of the site. -/
inductive Spells (function : Text) (site : CallSite) : Text → Prop
  | call {gap₁ gap₂ gap₃ gap₄ gap₅ comment : Text} :
      Blank gap₁ →
      Blank gap₂ →
      Blank gap₃ →
      Blank gap₄ →
      Blank gap₅ →
      PlainLiteral site.key →
      EscapedLiteral site.value →
      (∀ text, site.priority = some text → PriorityText text) →
      CommentText site.comment comment →
      Spells function site
        (function ++ (gap₁ ++ '(' :: (gap₂ ++ (site.key ++ (gap₃ ++ ',' :: (gap₄ ++ (site.value ++
          (site.priority.getD [] ++ (comment ++ (gap₅ ++ [')']))))))))))

theorem Spells.priorityText
    {function call priority : Text}
    {site : CallSite}
    (spelled : Spells function site call)
    (present : site.priority = some priority) :
    PriorityText priority := by
  cases spelled with
  | call _ _ _ _ _ _ _ priorityText => exact priorityText priority present

theorem Spells.value
    {function call : Text}
    {site : CallSite}
    (spelled : Spells function site call) :
    EscapedLiteral site.value := by
  cases spelled with
  | call _ _ _ _ _ _ value _ _ => exact value

theorem Spells.comment
    {function call literal : Text}
    {site : CallSite}
    (spelled : Spells function site call)
    (present : site.comment = some literal) :
    EscapedLiteral literal := by
  cases spelled with
  | call _ _ _ _ _ _ _ _ noted =>
      rw [present] at noted
      cases noted with
      | present _ _ literal => exact literal

/-! ## Marks and literals -/

theorem mark?_eq_some_iff_trimStart
    {mark : Char}
    {text rest : Text} :
    mark? mark text = some rest ↔ trimStart text = mark :: rest := by
  unfold mark?
  cases trimStart text with
  | nil => simp
  | cons char behind => by_cases same : char = mark <;> simp [same]

theorem mark?_eq_some_iff
    {mark : Char}
    (visible : isBlank mark = false)
    {text rest : Text} :
    mark? mark text = some rest ↔ ∃ gap, Blank gap ∧ text = gap ++ mark :: rest := by
  rw [mark?_eq_some_iff_trimStart]
  constructor
  · exact eq_append_of_trimStart
  · rintro ⟨gap, blank, rfl⟩
    exact trimStart_append_cons blank visible rest

theorem visible_of_isQuote
    {quote : Char}
    (isQuote : isQuote quote = true) :
    isBlank quote = false := by
  rcases eq_or_eq_of_isQuote isQuote with rfl | rfl <;> decide

theorem trimStart_literal
    {Body : Char → Text → Prop}
    {gap literal : Text}
    (blank : Blank gap)
    (spelled : Literal Body literal)
    (rest : Text) :
    trimStart (gap ++ (literal ++ rest)) = literal ++ rest := by
  obtain ⟨quote, inside, rfl, isQuote⟩ := spelled.eq_cons
  exact trimStart_append_cons blank (visible_of_isQuote isQuote) _

/-- The reader finds key and value where the grammar puts them. -/
theorem beginning?_eq_some_iff
    {function text key value rest : Text} :
    beginning? function text = some (key, value, rest) ↔
      PlainLiteral key ∧ EscapedLiteral value ∧ ∃ gap₁ gap₂ gap₃ gap₄,
        Blank gap₁ ∧ Blank gap₂ ∧ Blank gap₃ ∧ Blank gap₄ ∧
        text = function ++ (gap₁ ++ '(' :: (gap₂ ++ (key ++ (gap₃ ++ ',' :: (gap₄ ++
          (value ++ rest)))))) := by
  simp only [beginning?, Option.bind_eq_bind, Option.bind_eq_some_iff, Option.pure_def,
    Option.some.injEq, Prod.mk.injEq, Prod.exists, after?_eq_some_iff,
    mark?_eq_some_iff (by decide : isBlank '(' = false),
    mark?_eq_some_iff (by decide : isBlank ',' = false), plainLiteral?_eq_some_iff,
    escapedLiteral?_eq_some_iff]
  constructor
  · rintro ⟨_, rfl, afterParen, ⟨gap₁, blank₁, rfl⟩, _, _, ⟨plain, keyCut⟩, afterComma,
      ⟨gap₃, blank₃, rfl⟩, _, _, ⟨escaped, valueCut⟩, rfl, rfl, rfl⟩
    obtain ⟨gap₂, blank₂, rfl⟩ := eq_append_of_trimStart keyCut
    obtain ⟨gap₄, blank₄, rfl⟩ := eq_append_of_trimStart valueCut
    exact ⟨plain, escaped, gap₁, gap₂, gap₃, gap₄, blank₁, blank₂, blank₃, blank₄, rfl⟩
  · rintro ⟨plain, escaped, gap₁, gap₂, gap₃, gap₄, blank₁, blank₂, blank₃, blank₄, rfl⟩
    exact ⟨_, rfl, _, ⟨gap₁, blank₁, rfl⟩, key, _, ⟨plain, trimStart_literal blank₂ plain _⟩,
      _, ⟨gap₃, blank₃, rfl⟩, value, rest,
      ⟨escaped, trimStart_literal blank₄ escaped rest⟩, rfl, rfl, rfl⟩

/-! ## Ends of calls -/

theorem comment?_eq_some_iff
    {text literal rest : Text} :
    comment? text = some (literal, rest) ↔
      ∃ comment gap, CommentText (some literal) comment ∧ Blank gap ∧
        text = comment ++ (gap ++ ')' :: rest) := by
  simp only [comment?, Option.bind_eq_bind, Option.bind_eq_some_iff, Option.pure_def,
    Option.some.injEq, Prod.mk.injEq, Prod.exists,
    mark?_eq_some_iff (by decide : isBlank ',' = false),
    mark?_eq_some_iff (by decide : isBlank ')' = false), escapedLiteral?_eq_some_iff]
  constructor
  · rintro ⟨afterComma, ⟨before, blank, rfl⟩, _, _, ⟨escaped, cut⟩, _, ⟨gap, blankGap, rfl⟩,
      rfl, rfl⟩
    obtain ⟨behind, blankBehind, rfl⟩ := eq_append_of_trimStart cut
    exact ⟨_, gap, .present blank blankBehind escaped, blankGap, by simp⟩
  · rintro ⟨_, gap, spelled, blankGap, rfl⟩
    cases spelled with
    | @present before behind _ blank blankBehind escaped =>
        refine ⟨behind ++ (literal ++ (gap ++ ')' :: rest)), ⟨before, blank, by simp⟩, literal,
          gap ++ ')' :: rest, ⟨escaped, ?_⟩, rest, ⟨gap, blankGap, rfl⟩, rfl, rfl⟩
        exact trimStart_literal blankBehind escaped _

theorem endWithoutPriority?_sound
    {text rest : Text}
    {comment : Option Text}
    (read : endWithoutPriority? text = some (comment, rest)) :
    ∃ written gap, CommentText comment written ∧ Blank gap ∧
      text = written ++ (gap ++ ')' :: rest) := by
  unfold endWithoutPriority? at read
  split at read
  next literal behind found =>
    simp only [Option.some.injEq, Prod.mk.injEq] at read
    obtain ⟨rfl, rfl⟩ := read
    exact comment?_eq_some_iff.mp found
  next =>
    obtain ⟨behind, closed, equal⟩ := Option.map_eq_some_iff.mp read
    simp only [Prod.mk.injEq] at equal
    obtain ⟨rfl, rfl⟩ := equal
    obtain ⟨gap, blank, rfl⟩ := (mark?_eq_some_iff (by decide)).mp closed
    exact ⟨[], gap, .missing, blank, rfl⟩

/-- If the call can end here it is read to an end, though perhaps not to this one. -/
theorem endWithoutPriority?_complete
    {comment : Option Text}
    {written gap : Text}
    (spelled : CommentText comment written)
    (blank : Blank gap)
    (rest : Text) :
    (endWithoutPriority? (written ++ (gap ++ ')' :: rest))).isSome := by
  unfold endWithoutPriority?
  split
  next => rfl
  next unread =>
    cases spelled with
    | missing =>
        have closed : mark? ')' (gap ++ ')' :: rest) = some rest :=
          (mark?_eq_some_iff (by decide)).mpr ⟨gap, blank, rfl⟩
        rw [List.nil_append, closed]
        rfl
    | present before behind escaped =>
        rw [comment?_eq_some_iff.mpr
          ⟨_, gap, .present before behind escaped, blank, rfl⟩] at unread
        exact absurd unread (by simp)

/-! ## Priorities -/

theorem isPriorityChar_iff
    {char : Char} :
    isPriorityChar char = true ↔ char ≠ ',' ∧ char ≠ ')' := by
  simp [isPriorityChar]

theorem isPriorityChar_of_blank
    {gap : Text}
    (blank : Blank gap) :
    ∀ char ∈ gap, isPriorityChar char = true := by
  intro char member
  rw [isPriorityChar_iff]
  constructor
  · rintro rfl
    exact blank.not_mem (by decide) member
  · rintro rfl
    exact blank.not_mem (by decide) member

theorem isPriorityChar_of_token
    {token : Text}
    (tokenChars : ∀ char ∈ token, char ≠ ',' ∧ char ≠ ')') :
    ∀ char ∈ token, isPriorityChar char = true :=
  fun char member => isPriorityChar_iff.mpr (tokenChars char member)

theorem priority?_sound
    {text priority rest : Text}
    (read : priority? text = some (priority, rest)) :
    PriorityText priority ∧ text = priority ++ rest := by
  obtain ⟨behind, comma, equal⟩ := Option.map_eq_some_iff.mp read
  simp only [Prod.mk.injEq] at equal
  obtain ⟨rfl, rfl⟩ := equal
  rw [mark?_eq_some_iff_trimStart] at comma
  refine ⟨⟨blanks text, [], behind.takeWhile isPriorityChar, .blanks text, .nil, ?_, rfl⟩, ?_⟩
  · intro char member
    exact isPriorityChar_iff.mp (List.all_eq_true.mp List.all_takeWhile char member)
  · rw [List.append_assoc, List.cons_append, List.takeWhile_append_dropWhile, ← comma,
      blanks_append_trimStart]

/-- A priority is read at least as far as it is spelled. -/
theorem priority?_append
    {priority : Text}
    (spelled : PriorityText priority)
    (rest : Text) :
    ∃ found, priority? (priority ++ rest) = some (found, rest.dropWhile isPriorityChar) := by
  obtain ⟨before, behind, token, blank, blankBehind, tokenChars, rfl⟩ := spelled
  have comma : mark? ',' (before ++ ',' :: (behind ++ token) ++ rest) =
      some (behind ++ (token ++ rest)) :=
    (mark?_eq_some_iff (by decide)).mpr ⟨before, blank, by simp⟩
  rw [priority?, comma, Option.map_some,
    List.dropWhile_append_of_pos (isPriorityChar_of_blank blankBehind),
    List.dropWhile_append_of_pos (isPriorityChar_of_token tokenChars)]
  exact ⟨_, rfl⟩

/-- Blanks that a priority takes along are not missed by the end of the call. -/
theorem endWithoutPriority?_dropWhile
    {comment : Option Text}
    {written gap : Text}
    (spelled : CommentText comment written)
    (blank : Blank gap)
    (rest : Text) :
    (endWithoutPriority? ((written ++ (gap ++ ')' :: rest)).dropWhile isPriorityChar)).isSome := by
  have comma : isPriorityChar ',' = false := by decide
  have parenthesis : isPriorityChar ')' = false := by decide
  cases spelled with
  | missing =>
      have cut : ([] ++ (gap ++ ')' :: rest)).dropWhile isPriorityChar = ')' :: rest := by
        rw [List.nil_append, List.dropWhile_append_of_pos (isPriorityChar_of_blank blank)]
        simp [parenthesis]
      rw [cut]
      exact endWithoutPriority?_complete .missing .nil rest
  | @present before behind literal blankBefore blankBehind escaped =>
      have cut : (before ++ ',' :: (behind ++ literal) ++ (gap ++ ')' :: rest)).dropWhile
          isPriorityChar = [] ++ ',' :: (behind ++ literal) ++ (gap ++ ')' :: rest) := by
        rw [List.append_assoc, List.dropWhile_append_of_pos (isPriorityChar_of_blank blankBefore)]
        simp [comma]
      rw [cut]
      exact endWithoutPriority?_complete (.present .nil blankBehind escaped) blank rest

/-- An ending is read without a priority when it has none, or when its priority has no end. -/
theorem endWithoutPriority?_map_sound
    {text rest : Text}
    {priority comment : Option Text}
    (read : ((endWithoutPriority? text).map fun (comment, rest) => (none, comment, rest)) =
      some (priority, comment, rest)) :
    (∀ token, priority = some token → PriorityText token) ∧
      ∃ written gap, CommentText comment written ∧ Blank gap ∧
        text = priority.getD [] ++ (written ++ (gap ++ ')' :: rest)) := by
  obtain ⟨⟨found, behind⟩, inside, equal⟩ := Option.map_eq_some_iff.mp read
  simp only [Prod.mk.injEq] at equal
  obtain ⟨rfl, rfl, rfl⟩ := equal
  exact ⟨by simp, endWithoutPriority?_sound inside⟩

theorem ending?_sound
    {text rest : Text}
    {priority comment : Option Text}
    (read : ending? text = some (priority, comment, rest)) :
    (∀ token, priority = some token → PriorityText token) ∧
      ∃ written gap, CommentText comment written ∧ Blank gap ∧
        text = priority.getD [] ++ (written ++ (gap ++ ')' :: rest)) := by
  unfold ending? at read
  split at read
  next => exact endWithoutPriority?_map_sound read
  next token behind ranked =>
    split at read
    next found rest' inside =>
      simp only [Option.some.injEq, Prod.mk.injEq] at read
      obtain ⟨rfl, rfl, rfl⟩ := read
      obtain ⟨spelled, rfl⟩ := priority?_sound ranked
      obtain ⟨written, gap, commentSpelled, blank, rfl⟩ := endWithoutPriority?_sound inside
      refine ⟨?_, written, gap, commentSpelled, blank, rfl⟩
      intro other equal
      injection equal with same
      rwa [← same]
    next => exact endWithoutPriority?_map_sound read

theorem ending?_complete
    {priority comment : Option Text}
    {written gap : Text}
    (prioritySpelled : ∀ token, priority = some token → PriorityText token)
    (spelled : CommentText comment written)
    (blank : Blank gap)
    (rest : Text) :
    (ending? (priority.getD [] ++ (written ++ (gap ++ ')' :: rest)))).isSome := by
  have ended := endWithoutPriority?_complete spelled blank rest
  cases priority with
  | none =>
      rw [Option.getD_none, List.nil_append]
      unfold ending?
      split
      next => simpa using ended
      next =>
        split
        next => rfl
        next => simpa using ended
  | some token =>
      obtain ⟨found, ranked⟩ := priority?_append (prioritySpelled token rfl)
        (written ++ (gap ++ ')' :: rest))
      have cut := endWithoutPriority?_dropWhile spelled blank rest
      obtain ⟨⟨comment', rest'⟩, inside⟩ := Option.isSome_iff_exists.mp cut
      rw [Option.getD_some, ending?, ranked]
      simp only [inside, Option.isSome_some]

/-! ## Calls -/

/-- What is read as a call is spelled by the grammar. -/
theorem read?_sound
    {function text rest : Text}
    {site : CallSite}
    (read : read? function text = some (site, rest)) :
    ∃ call, Spells function site call ∧ text = call ++ rest := by
  simp only [read?, Option.bind_eq_bind, Option.bind_eq_some_iff, Option.pure_def,
    Option.some.injEq, Prod.mk.injEq, Prod.exists] at read
  obtain ⟨key, value, behind, begun, priority, comment, _, ended, rfl, rfl⟩ := read
  obtain ⟨plain, escaped, gap₁, gap₂, gap₃, gap₄, blank₁, blank₂, blank₃, blank₄, rfl⟩ :=
    beginning?_eq_some_iff.mp begun
  obtain ⟨prioritySpelled, written, gap₅, spelled, blank₅, rfl⟩ := ending?_sound ended
  exact ⟨_, .call blank₁ blank₂ blank₃ blank₄ blank₅ plain escaped prioritySpelled spelled, by simp⟩

/-- A call is read to the end that is found behind its value. -/
theorem read?_of_ending?
    {function key value gap₁ gap₂ gap₃ gap₄ text rest : Text}
    {priority comment : Option Text}
    (blank₁ : Blank gap₁)
    (blank₂ : Blank gap₂)
    (blank₃ : Blank gap₃)
    (blank₄ : Blank gap₄)
    (plain : PlainLiteral key)
    (escaped : EscapedLiteral value)
    (ended : ending? text = some (priority, comment, rest)) :
    read? function (function ++ (gap₁ ++ '(' :: (gap₂ ++ (key ++ (gap₃ ++ ',' :: (gap₄ ++
        (value ++ text))))))) = some (⟨key, value, priority, comment⟩, rest) := by
  have begun : beginning? function (function ++ (gap₁ ++ '(' :: (gap₂ ++ (key ++ (gap₃ ++
      ',' :: (gap₄ ++ (value ++ text))))))) = some (key, value, text) :=
    beginning?_eq_some_iff.mpr ⟨plain, escaped, gap₁, gap₂, gap₃, gap₄, blank₁, blank₂, blank₃,
      blank₄, rfl⟩
  simp only [read?, begun, ended, Option.bind_eq_bind, Option.bind_some, Option.pure_def]

/-- Where the grammar spells a call, some call is read. -/
theorem read?_complete
    {function call : Text}
    {site : CallSite}
    (spelled : Spells function site call)
    (rest : Text) :
    ∃ found behind, read? function (call ++ rest) = some (found, behind) := by
  cases spelled with
  | @call gap₁ gap₂ gap₃ gap₄ gap₅ written blank₁ blank₂ blank₃ blank₄ blank₅ plain escaped
      prioritySpelled spelled =>
      have ended := ending?_complete prioritySpelled spelled blank₅ rest
      obtain ⟨⟨priority, comment, behind⟩, inside⟩ := Option.isSome_iff_exists.mp ended
      refine ⟨⟨site.key, site.value, priority, comment⟩, behind, ?_⟩
      simpa using read?_of_ending? blank₁ blank₂ blank₃ blank₄ plain escaped inside

end CallSite
end Phrasebook
