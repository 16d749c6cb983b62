import Phrasebook.Proofs.CallSite.Embedding

/-!
# Literals in the place of a priority

An author may leave the priority out and write the literal of a comment as the third argument.  The
reader tries a priority first, and a priority is anything without commas and closing parentheses,
quotes included.  So it is the characters inside the literal that decide what the argument is: the
whole of it is a priority if it holds no such mark, and the call is closed at a parenthesis inside
it where that can be done.  Only a literal with a comma that does not let the call be closed comes
back as the comment.
-/

namespace Phrasebook
namespace CallSite

open Text

/-- A token and perhaps a comment stand in the literal in front of a closing parenthesis. -/
inductive EndsInside : Text → Prop
  | intro {token written gap : Text} {comment : Option Text} :
      (∀ char ∈ token, char ≠ ',' ∧ char ≠ ')') →
      CommentText comment written →
      Blank gap →
      (rest : Text) →
      EndsInside (token ++ (written ++ (gap ++ ')' :: rest)))

/-! ## The first mark -/

/-- A text with a comma or a closing parenthesis is a token and the first of these. -/
theorem exists_first_mark
    {text : Text}
    {mark : Char}
    (member : mark ∈ text)
    (isMark : mark = ',' ∨ mark = ')') :
    ∃ token first rest, text = token ++ first :: rest ∧ (first = ',' ∨ first = ')') ∧
      ∀ char ∈ token, char ≠ ',' ∧ char ≠ ')' := by
  induction text with
  | nil => simp at member
  | cons head rest ih =>
      by_cases here : head = ',' ∨ head = ')'
      · exact ⟨[], head, rest, rfl, here, by simp⟩
      · have later : mark ∈ rest := by
          rcases List.mem_cons.mp member with rfl | later
          · exact absurd isMark here
          · exact later
        obtain ⟨token, first, behind, rfl, isFirst, tokenChars⟩ := ih later
        refine ⟨head :: token, first, behind, rfl, isFirst, ?_⟩
        intro char inside
        rcases List.mem_cons.mp inside with rfl | inside
        · exact not_or.mp here
        · exact tokenChars char inside

/-- A parenthesis without a comma in front of it closes the call. -/
theorem endsInside_of_first_parenthesis
    {token rest : Text}
    (tokenChars : ∀ char ∈ token, char ≠ ',' ∧ char ≠ ')') :
    EndsInside (token ++ ')' :: rest) :=
  .intro tokenChars .missing .nil rest

theorem endsInside_of_mem
    {literal : Text}
    (noComma : ',' ∉ literal)
    (member : ')' ∈ literal) :
    EndsInside literal := by
  obtain ⟨token, first, rest, rfl, isFirst, tokenChars⟩ := exists_first_mark member (.inr rfl)
  rcases isFirst with rfl | rfl
  · exact absurd (by simp) noComma
  · exact endsInside_of_first_parenthesis tokenChars

/-- Where the call cannot be closed inside the literal, the comma comes first. -/
theorem eq_append_of_not_endsInside
    {literal : Text}
    (member : ',' ∈ literal)
    (unclosed : ¬EndsInside literal) :
    ∃ token later, literal = token ++ ',' :: later ∧ ∀ char ∈ token, char ≠ ',' ∧ char ≠ ')' := by
  obtain ⟨token, first, later, rfl, isFirst, tokenChars⟩ := exists_first_mark member (.inl rfl)
  rcases isFirst with rfl | rfl
  · exact ⟨token, later, rfl, tokenChars⟩
  · exact absurd (endsInside_of_first_parenthesis tokenChars) unclosed

/-! ## A comma in the literal -/

theorem trimEnd_append_literal
    {literal : Text}
    (spelled : EscapedLiteral literal)
    (front : Text) :
    trimEnd (front ++ literal) = front ++ literal := by
  cases spelled with
  | @quoted quote body isQuote =>
      rw [trimEnd_eq_self_iff]
      intro earlier last whole
      rw [quoted, ← List.append_assoc] at whole
      have same : [quote] = [last] := List.append_inj_right' whole rfl
      injection same with same
      rw [← same, visible_of_isQuote isQuote]

/-- No literal ends with a comma and another literal, whose first quote would have closed it. -/
theorem append_literal_ne_literal
    {literal inner gap : Text}
    (spelled : EscapedLiteral literal)
    (innerSpelled : EscapedLiteral inner)
    (blank : Blank gap)
    (front : Text) :
    front ++ ',' :: (gap ++ inner) ≠ literal := by
  intro whole
  cases spelled with
  | @quoted quote body isQuote formed =>
      cases innerSpelled with
      | @quoted innerQuote innerBody =>
          have regrouped : (front ++ ',' :: gap ++ innerQuote :: innerBody) ++ [innerQuote] =
              (quote :: body) ++ [quote] := by
            simpa [quoted] using whole
          obtain ⟨inside, closing⟩ := List.append_inj' regrouped rfl
          injection closing with same
          subst same
          rcases List.append_eq_cons_iff.mp inside with ⟨nothing, -⟩ | ⟨earlier, first, behind⟩
          · simp at nothing
          obtain ⟨before, rfl⟩ := formed.slash_in_front (ne_slash_of_isQuote isQuote) behind
          exact append_cons_ne_concat blank (by decide) (by decide) front (innerQuote :: before)
            first

/-- Behind the first comma no comment is found that ends the call. -/
theorem comment?_eq_none_of_not_endsInside
    {token later gap : Text}
    (spelled : EscapedLiteral (token ++ ',' :: later))
    (tokenChars : ∀ char ∈ token, char ≠ ',' ∧ char ≠ ')')
    (unclosed : ¬EndsInside (token ++ ',' :: later))
    (blank : Blank gap) :
    comment? (',' :: (later ++ (gap ++ [')']))) = none := by
  rw [Option.eq_none_iff_forall_ne_some]
  rintro ⟨inner, rest⟩ read
  obtain ⟨written, innerGap, noted, blankInner, cut⟩ := comment?_eq_some_iff.mp read
  have whole : token ++ ',' :: later ++ gap ++ [')'] =
      token ++ (written ++ innerGap) ++ ')' :: rest := by
    simpa using congrArg (token ++ ·) cut
  rcases List.eq_nil_or_concat rest with rfl | ⟨rest, last, rfl⟩
  -- The parenthesis is the one behind the literal, so the two literals end together.
  · have same : token ++ ',' :: later ++ gap = token ++ (written ++ innerGap) :=
      List.append_inj_left' whole rfl
    cases noted with
    | @present before behind _ blankBefore blankBehind innerSpelled =>
        apply append_literal_ne_literal spelled innerSpelled blankBehind (token ++ before)
        calc token ++ before ++ ',' :: (behind ++ inner)
          _ = trimEnd (token ++ before ++ ',' :: behind ++ inner) := by
            rw [trimEnd_append_literal innerSpelled]
            simp
          _ = trimEnd (token ++ ',' :: later ++ gap) := by
            rw [same, ← trimEnd_append_of_blank blankInner]
            simp
          _ = token ++ ',' :: later := by
            rw [trimEnd_append_of_blank blank]
            simpa using trimEnd_append_literal spelled []
  -- The parenthesis stands in front of another one, and so in the literal.
  · rw [List.concat_eq_append, ← List.cons_append, ← List.append_assoc _ _ [last]] at whole
    have inside : token ++ ',' :: later ++ gap = token ++ (written ++ innerGap) ++ ')' :: rest :=
      List.append_inj_left' whole rfl
    obtain ⟨behind, split⟩ := exists_eq_append_of_append_blank blank (by decide) inside
    apply unclosed
    rw [split]
    simpa using EndsInside.intro tokenChars noted blankInner behind

/-- A literal with a comma that does not let the call be closed is read as the comment. -/
theorem ending?_literal
    {literal before behind gap : Text}
    (blankBefore : Blank before)
    (blankBehind : Blank behind)
    (blank : Blank gap)
    (spelled : EscapedLiteral literal)
    (member : ',' ∈ literal)
    (unclosed : ¬EndsInside literal) :
    ending? (before ++ ',' :: (behind ++ literal) ++ (gap ++ [')'])) =
      some (none, some literal, []) := by
  have noted : comment? (before ++ ',' :: (behind ++ literal) ++ (gap ++ [')'])) =
      some (literal, []) :=
    comment?_eq_some_iff.mpr ⟨_, gap, .present blankBefore blankBehind spelled, blank, rfl⟩
  obtain ⟨token, later, rfl, tokenChars⟩ := eq_append_of_not_endsInside member unclosed
  have inside : ∀ char ∈ behind ++ token, isPriorityChar char = true := by
    rw [List.forall_mem_append]
    exact ⟨isPriorityChar_of_blank blankBehind, isPriorityChar_of_token tokenChars⟩
  have ranked : priority? (before ++ ',' :: (behind ++ (token ++ ',' :: later)) ++ (gap ++ [')'])) =
      some (before ++ ',' :: (behind ++ token), ',' :: (later ++ (gap ++ [')']))) := by
    simpa using priority?_eq blankBefore inside (by decide : isPriorityChar ',' = false)
      (later ++ (gap ++ [')']))
  have notClosed : mark? ')' (',' :: (later ++ (gap ++ [')']))) = none := by
    rw [mark?, trimStart_cons_of_visible (by decide)]
    rfl
  have unended : endWithoutPriority? (',' :: (later ++ (gap ++ [')']))) = none := by
    rw [endWithoutPriority?, comment?_eq_none_of_not_endsInside spelled tokenChars unclosed blank,
      notClosed]
    rfl
  have ended : endWithoutPriority? (before ++ ',' :: (behind ++ (token ++ ',' :: later)) ++
      (gap ++ [')'])) = some (some (token ++ ',' :: later), []) := by
    rw [endWithoutPriority?, noted]
  rw [ending?, ranked]
  simp only [unended, ended, Option.map_some]

/-! ## What becomes of the argument -/

/-- As a priority a literal keeps its quotes and loses its line breaks only. -/
theorem cleanToken?_literal
    {literal : Text}
    (spelled : EscapedLiteral literal) :
    Entity.cleanToken? literal =
      some (literal.filter fun char => char ≠ '\n' && char ≠ '\x0d') := by
  have start : trimStart literal = literal := by
    simpa using trimStart_literal .nil spelled []
  have trimmed : trim literal = literal := by
    rw [trim, start]
    exact trimEnd_append_literal spelled []
  have filled : ¬Blank literal := by
    intro blank
    obtain ⟨quote, inside, rfl, isQuote⟩ := spelled.eq_cons
    exact blank.not_mem (visible_of_isQuote isQuote) List.mem_cons_self
  rw [Entity.cleanToken?, if_neg filled, trimmed]

variable {function key value literal call : Text}

/-- The literal is the comment of the one call that is found. -/
theorem scan_noted
    (spelled : Spells function ⟨key, value, none, some literal⟩ call)
    (member : ',' ∈ literal)
    (unclosed : ¬EndsInside literal) :
    scan function call = [⟨⟨key, value, none, some literal⟩, 0, byteLength call⟩] := by
  cases spelled with
  | call blank₁ blank₂ blank₃ blank₄ blank₅ plain escaped _ noted =>
      cases noted with
      | present blankBefore blankBehind literalSpelled =>
          have ended :=
            ending?_literal blankBefore blankBehind blank₅ literalSpelled member unclosed
          exact scan_of_read?_nil
            (read?_of_ending? blank₁ blank₂ blank₃ blank₄ plain escaped ended)

/-- A call with a comment and no priority is a call with the literal as its token. -/
theorem Spells.written
    (spelled : Spells function ⟨key, value, none, some literal⟩ call)
    (noComma : ',' ∉ literal)
    (noParenthesis : ')' ∉ literal) :
    Written function key value (some literal) none call := by
  cases spelled with
  | @call gap₁ gap₂ gap₃ gap₄ gap₅ _ blank₁ blank₂ blank₃ blank₄ blank₅ plain escaped _ noted =>
      cases noted with
      | @present before behind _ blankBefore blankBehind _ =>
          have tokenChars : ∀ char ∈ literal, char ≠ ',' ∧ char ≠ ')' :=
            fun char member => ⟨ne_of_mem_of_not_mem member noComma,
              ne_of_mem_of_not_mem member noParenthesis⟩
          have arguments : Arguments (some literal) none
              (before ++ ',' :: (behind ++ (literal ++ []))) :=
            .ranked blankBefore blankBehind tokenChars .missing
          simpa using Written.call blank₁ blank₂ blank₃ blank₄ blank₅ plain escaped arguments

/-- Where the literal lets the call be closed, it begins with a shorter one. -/
theorem Spells.written_inside
    (spelled : Spells function ⟨key, value, none, some literal⟩ call)
    (closed : EndsInside literal) :
    ∃ taken rest token comment, call = taken ++ rest ∧ rest ≠ [] ∧
      Written function key value (some token) comment taken := by
  cases spelled with
  | @call gap₁ gap₂ gap₃ gap₄ gap₅ _ blank₁ blank₂ blank₃ blank₄ blank₅ plain escaped _ noted =>
      cases noted with
      | @present before behind _ blankBefore blankBehind _ =>
          cases closed with
          | @intro token written gap comment tokenChars noted blank rest =>
              have arguments : Arguments (some token) comment
                  (before ++ ',' :: (behind ++ (token ++ written))) :=
                .ranked blankBefore blankBehind tokenChars noted
              refine ⟨_, rest ++ (gap₅ ++ [')']), token, comment, ?_, by simp,
                .call blank₁ blank₂ blank₃ blank₄ blank plain escaped arguments⟩
              simp

/-- A written call with a token is found with a priority, wherever the text goes on. -/
theorem scan_ranked
    {token : Text}
    {comment : Option Text}
    (written : Written function key value (some token) comment call)
    (rest : Text) :
    ∃ priority, Entity.normalPriority? priority = Entity.cleanToken? token ∧
      scan function (call ++ rest) =
        ⟨⟨key, value, some priority, comment⟩, 0, byteLength call⟩ ::
          (scan function rest).map (Occurrence.shift (byteLength call)) := by
  obtain ⟨priority, read, normal⟩ := read?_written written rest
  obtain ⟨priority, rfl, same⟩ := Option.map_eq_some_iff.mp normal
  exact ⟨priority, same, scan_of_read? read⟩

/-- A literal without marks is the priority of the one call that is found. -/
theorem scan_unmarked
    (spelled : Spells function ⟨key, value, none, some literal⟩ call)
    (noComma : ',' ∉ literal)
    (noParenthesis : ')' ∉ literal) :
    ∃ priority, Entity.normalPriority? priority =
        some (literal.filter fun char => char ≠ '\n' && char ≠ '\x0d') ∧
      scan function call = [⟨⟨key, value, some priority, none⟩, 0, byteLength call⟩] := by
  obtain ⟨priority, normal, found⟩ := scan_ranked (spelled.written noComma noParenthesis) []
  rw [cleanToken?_literal (spelled.comment rfl)] at normal
  rw [List.append_nil, scan_nil] at found
  exact ⟨priority, normal, found⟩

/-- A literal that lets the call be closed has a shorter call with a priority found. -/
theorem scan_cut
    (spelled : Spells function ⟨key, value, none, some literal⟩ call)
    (closed : EndsInside literal) :
    ∃ taken rest token comment priority, call = taken ++ rest ∧ rest ≠ [] ∧
      Written function key value (some token) comment taken ∧
      Entity.normalPriority? priority = Entity.cleanToken? token ∧
      scan function call =
        ⟨⟨key, value, some priority, comment⟩, 0, byteLength taken⟩ ::
          (scan function rest).map (Occurrence.shift (byteLength taken)) := by
  obtain ⟨taken, rest, token, comment, rfl, nonempty, written⟩ := spelled.written_inside closed
  obtain ⟨priority, normal, found⟩ := scan_ranked written rest
  exact ⟨taken, rest, token, comment, priority, rfl, nonempty, written, normal, found⟩

/--
A literal as the third argument is the comment of the call exactly if it holds a comma and does not
let the call be closed.  Without a comma and a parenthesis it is the priority, quotes included.  If
it lets the call be closed, a shorter call with a priority is found in its place.
-/
theorem scan_third_argument
    (spelled : Spells function ⟨key, value, none, some literal⟩ call) :
    (scan function call = [⟨⟨key, value, none, some literal⟩, 0, byteLength call⟩] ↔
      ',' ∈ literal ∧ ¬EndsInside literal) ∧
    (',' ∉ literal → ')' ∉ literal →
      ∃ priority, Entity.normalPriority? priority =
          some (literal.filter fun char => char ≠ '\n' && char ≠ '\x0d') ∧
        scan function call = [⟨⟨key, value, some priority, none⟩, 0, byteLength call⟩]) ∧
    (EndsInside literal →
      ∃ taken rest token comment priority, call = taken ++ rest ∧ rest ≠ [] ∧
        Written function key value (some token) comment taken ∧
        Entity.normalPriority? priority = Entity.cleanToken? token ∧
        scan function call =
          ⟨⟨key, value, some priority, comment⟩, 0, byteLength taken⟩ ::
            (scan function rest).map (Occurrence.shift (byteLength taken))) := by
  refine ⟨⟨?_, fun ⟨member, unclosed⟩ => scan_noted spelled member unclosed⟩,
    scan_unmarked spelled, scan_cut spelled⟩
  -- In the other two cases a priority is reported.
  intro noted
  have unclosed : ¬EndsInside literal := by
    intro closed
    obtain ⟨_, _, _, _, _, -, -, -, -, found⟩ := scan_cut spelled closed
    rw [noted] at found
    simp at found
  refine ⟨Classical.not_not.mp fun noComma => ?_, unclosed⟩
  obtain ⟨_, -, found⟩ :=
    scan_unmarked spelled noComma fun member => unclosed (endsInside_of_mem noComma member)
  rw [noted] at found
  simp at found

/-- What follows the comma of the list does not end the call, so the list is the comment. -/
theorem scan_third_argument_list :
    let function := "_t".toList
    let key := quoted '\x22' "A.B".toList
    let value := quoted '\x27' "It\x5c's".toList
    let literal := quoted '\x22' "one, 'two' (three)\n".toList
    let call := function ++ ([] ++ '(' :: ([] ++ (key ++ ([] ++ ',' :: (" ".toList ++ (value ++
      ([] ++ ((" ".toList ++ ',' :: ("\n".toList ++ literal)) ++ ([] ++ [')'])))))))))
    Spells function ⟨key, value, none, some literal⟩ call ∧
      (scan function call = [⟨⟨key, value, none, some literal⟩, 0, byteLength call⟩] ↔
        ',' ∈ literal ∧ ¬EndsInside literal) ∧
      (',' ∉ literal → ')' ∉ literal →
        ∃ priority, Entity.normalPriority? priority =
            some (literal.filter fun char => char ≠ '\n' && char ≠ '\x0d') ∧
          scan function call = [⟨⟨key, value, some priority, none⟩, 0, byteLength call⟩]) ∧
      (EndsInside literal →
        ∃ taken rest token comment priority, call = taken ++ rest ∧ rest ≠ [] ∧
          Written function key value (some token) comment taken ∧
          Entity.normalPriority? priority = Entity.cleanToken? token ∧
          scan function call =
            ⟨⟨key, value, some priority, comment⟩, 0, byteLength taken⟩ ::
              (scan function rest).map (Occurrence.shift (byteLength taken))) := by
  intro function key value literal call
  have literalSpelled : EscapedLiteral literal :=
    .quoted (by decide) ((isEscapedBody_iff (by decide)).mp (by decide))
  have spelled : Spells function ⟨key, value, none, some literal⟩ call :=
    .call .nil .nil .nil (by decide) .nil (.quoted (by decide) (by decide))
      (.quoted (by decide) (by decide)) (by simp)
      (.present (by decide) (by decide) literalSpelled)
  exact ⟨spelled, scan_third_argument spelled⟩

/-- A label becomes the priority, and a parenthesis in a comment ends the call. -/
theorem scan_third_argument_ne :
    let function := "_t".toList
    let site (literal : Text) : CallSite := ⟨"'A.B'".toList, "'Save'".toList, none, some literal⟩
    let call (literal : Text) := function ++ ([] ++ '(' :: ([] ++ ("'A.B'".toList ++ ([] ++ ',' ::
      (" ".toList ++ ("'Save'".toList ++ ([] ++ (([] ++ ',' :: (" ".toList ++ literal)) ++
        ([] ++ [')'])))))))))
    ∀ body ∈ ["Button label".toList, "see (a) below".toList],
      let literal := quoted '\x27' body
      IsFunctionName function ∧ Spells function (site literal) (call literal) ∧
        scan function (call literal) ≠ [⟨site literal, 0, byteLength (call literal)⟩] := by
  intro function site call body member
  have plain : PlainLiteral (quoted '\x27' "A.B".toList) := .quoted (by decide) (by decide)
  have escaped : EscapedLiteral (quoted '\x27' "Save".toList) := .quoted (by decide) (by decide)
  have formed : EscapedBody '\x27' body := by
    revert body
    decide
  refine ⟨by decide, ?_, ?_⟩
  · exact .call .nil .nil .nil (by decide) .nil plain escaped (by simp [site])
      (.present .nil (by decide) (.quoted (by decide) formed))
  · revert body
    decide +kernel

end CallSite
end Phrasebook
