import Phrasebook.Include.Directive
import Phrasebook.Proofs.CallSite.Scanning
import Phrasebook.Proofs.Entity.Normal

/-!
# Calls inside other text

A call as an author writes it has a comment only behind a priority, so each of its parts can be
told from the text alone.  Such a call is found with its parts wherever it stands, provided that the
name of the function does not occur in front of it: no call can begin there, and none can run into
the written one, because the name would have to end in the middle of the name.  What is found behind
the call does not depend on anything in front.
-/

namespace Phrasebook

open Text

/-! ## Names of functions -/

namespace CallSite

/-- The name of a function is made of the same characters as the name of an include. -/
def IsFunctionName (function : Text) : Prop :=
  ∀ char ∈ function, Include.isNameChar char = true

instance (function : Text) : Decidable (IsFunctionName function) :=
  decidable_of_iff (function.all Include.isNameChar = true) List.all_eq_true

theorem not_mark_of_isNameChar
    {char : Char}
    (isName : Include.isNameChar char = true) :
    isBlank char = false ∧ char ≠ '(' := by
  have ranges : (((decide (65 ≤ char.val ∧ char.val ≤ 90) ||
      (decide (97 ≤ char.val) && decide (char.val ≤ 122))) ||
        (decide (48 ≤ char.val) && decide (char.val ≤ 57))) || decide (char = '_')) = true := isName
  simp only [Bool.or_eq_true, decide_eq_true_eq, Bool.and_eq_true,
    UInt32.le_iff_toNat_le] at ranges
  have code : (((65 ≤ char.toNat ∧ char.toNat ≤ 90) ∨ (97 ≤ char.toNat ∧ char.toNat ≤ 122)) ∨
      (48 ≤ char.toNat ∧ char.toNat ≤ 57)) ∨ char = '_' := ranges
  constructor
  · simp only [isBlank, blankRanges, List.any_cons, List.any_nil, Bool.or_false,
      Bool.or_eq_false_iff, Bool.and_eq_false_iff, decide_eq_false_iff_not]
    rcases code with range | rfl
    · omega
    · decide
  · rintro rfl
    revert code
    decide

/-! ## Written calls -/

/-- What is written behind the value, with the token of the priority and the comment in it. -/
inductive Arguments : Option Text → Option Text → Text → Prop
  | none : Arguments none none []
  | ranked {before behind token written : Text} {comment : Option Text} :
      Blank before →
      Blank behind →
      (∀ char ∈ token, char ≠ ',' ∧ char ≠ ')') →
      CommentText comment written →
      Arguments (some token) comment (before ++ ',' :: (behind ++ (token ++ written)))

/-- The text is a call with the literals of key and value, a token and the literal of a comment. -/
inductive Written
    (function key value : Text)
    (token comment : Option Text) :
    Text → Prop
  | call {gap₁ gap₂ gap₃ gap₄ gap₅ arguments : Text} :
      Blank gap₁ →
      Blank gap₂ →
      Blank gap₃ →
      Blank gap₄ →
      Blank gap₅ →
      PlainLiteral key →
      EscapedLiteral value →
      Arguments token comment arguments →
      Written function key value token comment
        (function ++ (gap₁ ++ '(' :: (gap₂ ++ (key ++ (gap₃ ++ ',' :: (gap₄ ++ (value ++
          (arguments ++ (gap₅ ++ [')'])))))))))

/-- A priority ends with the blanks in front of the next mark. -/
theorem priority?_eq
    {before inside : Text}
    {stop : Char}
    (blank : Blank before)
    (isInside : ∀ char ∈ inside, isPriorityChar char = true)
    (stops : isPriorityChar stop = false)
    (behind : Text) :
    priority? (before ++ ',' :: (inside ++ stop :: behind)) =
      some (before ++ ',' :: inside, stop :: behind) := by
  have comma : isBlank ',' = false := by decide
  have read : mark? ',' (before ++ ',' :: (inside ++ stop :: behind)) =
      some (inside ++ stop :: behind) :=
    (mark?_eq_some_iff comma).mpr ⟨before, blank, rfl⟩
  have front : blanks (before ++ ',' :: (inside ++ stop :: behind)) = before := by
    rw [blanks, List.takeWhile_append_of_pos blank]
    simp [comma]
  rw [priority?, read, Option.map_some, front, List.takeWhile_append_of_pos isInside,
    List.dropWhile_append_of_pos isInside]
  simp [stops]

/-- A comment, or the closing parenthesis, begins at a mark that no priority contains. -/
theorem exists_mark_of_commentText
    {comment : Option Text}
    {written gap : Text}
    (spelled : CommentText comment written)
    (blank : Blank gap)
    (rest : Text) :
    ∃ lead mark behind, written ++ (gap ++ ')' :: rest) = lead ++ mark :: behind ∧ Blank lead ∧
      isPriorityChar mark = false ∧
      endWithoutPriority? (mark :: behind) = some (comment, rest) := by
  cases spelled with
  | missing =>
      refine ⟨gap, ')', rest, rfl, blank, by decide, ?_⟩
      have noComma : mark? ',' (')' :: rest) = none := by
        rw [mark?, trimStart_cons_of_visible (by decide)]
        rfl
      have closed : mark? ')' (')' :: rest) = some rest :=
        (mark?_eq_some_iff (by decide)).mpr ⟨[], .nil, rfl⟩
      simp [endWithoutPriority?, comment?, noComma, closed]
  | @present before behind literal blankBefore blankBehind escaped =>
      refine ⟨before, ',', behind ++ (literal ++ (gap ++ ')' :: rest)), by simp, blankBefore,
        by decide, ?_⟩
      have read : comment? (',' :: (behind ++ (literal ++ (gap ++ ')' :: rest)))) =
          some (literal, rest) :=
        comment?_eq_some_iff.mpr ⟨_, gap, .present .nil blankBehind escaped, blank, by simp⟩
      rw [endWithoutPriority?, read]

/-- What is written behind the value is taken apart as it was put together. -/
theorem ending?_arguments
    {token comment : Option Text}
    {arguments gap : Text}
    (written : Arguments token comment arguments)
    (blank : Blank gap)
    (rest : Text) :
    ∃ priority, ending? (arguments ++ (gap ++ ')' :: rest)) = some (priority, comment, rest) ∧
      priority.map Entity.normalPriority? = token.map Entity.cleanToken? := by
  cases written with
  | none =>
      have parenthesis : trimStart (gap ++ ')' :: rest) = ')' :: rest :=
        trimStart_append_cons blank (by decide) rest
      refine ⟨none, ?_, rfl⟩
      rw [List.nil_append]
      simp [ending?, priority?, endWithoutPriority?, comment?, mark?, parenthesis]
  | @ranked before behind token written comment blankBefore blankBehind tokenChars spelled =>
      obtain ⟨lead, mark, later, whole, blankLead, stops, ended⟩ :=
        exists_mark_of_commentText spelled blank rest
      have inside : ∀ char ∈ behind ++ (token ++ lead), isPriorityChar char = true := by
        simp only [List.forall_mem_append]
        exact ⟨isPriorityChar_of_blank blankBehind, isPriorityChar_of_token tokenChars,
          isPriorityChar_of_blank blankLead⟩
      have ranked := priority?_eq blankBefore inside stops later
      refine ⟨some (before ++ ',' :: (behind ++ (token ++ lead))), ?_, ?_⟩
      · have regrouped : before ++ ',' :: (behind ++ (token ++ written)) ++ (gap ++ ')' :: rest) =
            before ++ ',' :: (behind ++ (token ++ lead) ++ mark :: later) := by
          simp [← whole]
        rw [regrouped, ending?, ranked]
        simp only [ended]
      · rw [Option.map_some, Option.map_some,
          Entity.normalPriority?_written blankBefore blankBehind blankLead]

/-- A written call is read with the parts that it was written with. -/
theorem read?_written
    {function key value call : Text}
    {token comment : Option Text}
    (written : Written function key value token comment call)
    (rest : Text) :
    ∃ priority, read? function (call ++ rest) = some (⟨key, value, priority, comment⟩, rest) ∧
      priority.map Entity.normalPriority? = token.map Entity.cleanToken? := by
  cases written with
  | @call gap₁ gap₂ gap₃ gap₄ gap₅ arguments blank₁ blank₂ blank₃ blank₄ blank₅ plain escaped
      written =>
      obtain ⟨priority, ended, normal⟩ := ending?_arguments written blank₅ rest
      refine ⟨priority, ?_, normal⟩
      simpa using read?_of_ending? blank₁ blank₂ blank₃ blank₄ plain escaped ended

/-! ## What stands in front -/

/-- Where a call is read, blanks and a parenthesis follow the name. -/
theorem eq_append_of_read?
    {function text rest : Text}
    {site : CallSite}
    (read : read? function text = some (site, rest)) :
    ∃ gap behind, Blank gap ∧ text = function ++ (gap ++ '(' :: behind) := by
  simp only [read?, Option.bind_eq_bind, Option.bind_eq_some_iff, Prod.exists] at read
  obtain ⟨_, _, _, begun, -⟩ := read
  obtain ⟨-, -, gap, _, _, _, blank, -, -, -, rfl⟩ := beginning?_eq_some_iff.mp begun
  exact ⟨gap, _, blank, rfl⟩

/-- No call begins in front of the name if the name does not occur there. -/
theorem read?_eq_none_of_absent
    {function front suffix tail : Text}
    (name : IsFunctionName function)
    (absent : ¬function <:+: front)
    (isSuffix : suffix <:+ front)
    (nonempty : suffix ≠ []) :
    read? function (suffix ++ (function ++ tail)) = none := by
  rw [Option.eq_none_iff_forall_ne_some]
  rintro ⟨site, rest⟩ read
  obtain ⟨gap, behind, blank, whole⟩ := eq_append_of_read? read
  rcases List.append_eq_append_iff.mp whole with ⟨inner, nameSplit, later⟩ | ⟨inner, cut, -⟩
  -- The name runs from the front into the written name and ends inside it.
  · have shorter : inner.length < function.length := by
      have lengths := congrArg List.length nameSplit
      have positive := List.length_pos_iff.mpr nonempty
      rw [List.length_append] at lengths
      omega
    rcases List.append_eq_append_iff.mp later with ⟨_, longer, -⟩ | ⟨remainder, split, cut⟩
    · have lengths := congrArg List.length longer
      rw [List.length_append] at lengths
      omega
    · cases remainder with
      | nil =>
          have lengths := congrArg List.length split
          rw [List.append_nil] at lengths
          omega
      | cons char remainder =>
          have ofName := name char (by simp [split])
          obtain ⟨visible, noParenthesis⟩ := not_mark_of_isNameChar ofName
          cases gap with
          | nil =>
              injection cut with same
              exact noParenthesis same.symm
          | cons head gap =>
              injection cut with same
              exact blank.not_mem visible (by simp [same])
  -- The name ends in front of the written one.
  · apply absent
    exact (cut ▸ List.prefix_append function inner).isInfix.trans isSuffix.isInfix

theorem Written.eq_append
    {function key value call : Text}
    {token comment : Option Text}
    (written : Written function key value token comment call) :
    ∃ tail, call = function ++ tail := by
  cases written with
  | call => exact ⟨_, rfl⟩

/--
A scan finds a written call behind a text without the name of the function, with its parts as they
are written and its priority cleaned, and then what it finds in the text behind the call.
-/
theorem scan_written_call
    {function front call key value : Text}
    {token comment : Option Text}
    (name : IsFunctionName function)
    (absent : ¬function <:+: front)
    (written : Written function key value token comment call)
    (behind : Text) :
    ∃ priority, priority.map Entity.normalPriority? = token.map Entity.cleanToken? ∧
      scan function (front ++ call ++ behind) =
        ⟨⟨key, value, priority, comment⟩, byteLength front, byteLength (front ++ call)⟩ ::
          (scan function behind).map (Occurrence.shift (byteLength (front ++ call))) := by
  obtain ⟨priority, read, normal⟩ := read?_written written behind
  refine ⟨priority, normal, ?_⟩
  have unread : ∀ suffix, suffix <:+ front → suffix ≠ [] →
      read? function (suffix ++ (call ++ behind)) = none := by
    intro suffix isSuffix nonempty
    obtain ⟨tail, rfl⟩ := written.eq_append
    rw [List.append_assoc]
    exact read?_eq_none_of_absent name absent isSuffix nonempty
  rw [scan, List.append_assoc, scanFrom_append_of_none unread, scanFrom_of_read? read, scan,
    Nat.zero_add, ← byteLength_append]
  congr 1
  rw [← scanFrom_add, Nat.zero_add]

/--
The text in front ends like the name begins, value and comment hold the marks of a call, the
priority is broken over two lines, and another call follows.
-/
theorem scan_written_call_awkward :
    let function := "_t".toList
    let front := "$x = _".toList
    let key := quoted '\x22' "A.B".toList
    let value := quoted '\x27' "It\x5c's _t(\x22a\x22, (b)".toList
    let token := "PR_\nHIGH 'x".toList
    let comment := quoted '\x22' "), _t(".toList
    let call := function ++ (" ".toList ++ '(' :: ([] ++ (key ++ ([] ++ ',' :: ("\n".toList ++
      (value ++ ((" ".toList ++ ',' :: ("\t".toList ++ (token ++ ("\n".toList ++
        ',' :: (" ".toList ++ comment))))) ++ (" ".toList ++ [')']))))))))
    let behind := "; _t('C', 'd')".toList
    IsFunctionName function ∧ ¬function <:+: front ∧
      Written function key value (some token) (some comment) call ∧
      ∃ priority, priority.map Entity.normalPriority? = (some token).map Entity.cleanToken? ∧
        scan function (front ++ call ++ behind) =
          ⟨⟨key, value, priority, some comment⟩, byteLength front, byteLength (front ++ call)⟩ ::
            (scan function behind).map (Occurrence.shift (byteLength (front ++ call))) := by
  intro function front key value token comment call behind
  have plain : PlainLiteral key := .quoted (by decide) (by decide)
  have escaped : EscapedLiteral value := .quoted (by decide) (by decide)
  have commentEscaped : EscapedLiteral comment :=
    .quoted (by decide) ((isEscapedBody_iff (by decide)).mp (by decide))
  have tokenChars : ∀ char ∈ token, char ≠ ',' ∧ char ≠ ')' := by simp [token]
  have written : Written function key value (some token) (some comment) call :=
    .call (by decide) .nil .nil (by decide) (by decide) plain escaped
      (.ranked (by decide) (by decide) tokenChars
        (.present (by decide) (by decide) commentEscaped))
  have name : IsFunctionName function := by decide
  have absent : ¬function <:+: front := fun inside =>
    absurd (inside.subset (show 't' ∈ function by decide)) (by decide)
  exact ⟨name, absent, written, scan_written_call name absent written behind⟩

end CallSite
end Phrasebook
