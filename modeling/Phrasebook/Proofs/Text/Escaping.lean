import Phrasebook.Text.Quoted

/-!
# Escaped bodies

The grammar of literals, beside the readers that recognise it.  An escaped body is a run of
characters other than the quote and the backslash, and of backslashes that take the next character
along.  Each reader finds exactly the one way in which a text begins with a body and its quote.

Unescaping undoes escaping.  The other way round it goes where every quote has a backslash in front
of it, as in every escaped body.
-/

namespace Phrasebook
namespace Text

/-- A run of plain characters and of pairs that a backslash begins. -/
inductive EscapedBody (quote : Char) : Text → Prop
  | nil : EscapedBody quote []
  | plain {char : Char} {rest : Text} :
      char ≠ quote →
      char ≠ '\x5c' →
      EscapedBody quote rest →
      EscapedBody quote (char :: rest)
  | pair {char : Char} {rest : Text} :
      EscapedBody quote rest →
      EscapedBody quote ('\x5c' :: char :: rest)

theorem escapedBody_cons_iff_of_ne
    {quote char : Char}
    (noSlash : char ≠ '\x5c')
    {rest : Text} :
    EscapedBody quote (char :: rest) ↔ char ≠ quote ∧ EscapedBody quote rest := by
  constructor
  · intro formed
    cases formed with
    | plain other _ formed => exact ⟨other, formed⟩
    | pair => exact absurd rfl noSlash
  · rintro ⟨other, formed⟩
    exact .plain other noSlash formed

theorem escapedBody_pair_iff
    {quote char : Char}
    {rest : Text} :
    EscapedBody quote ('\x5c' :: char :: rest) ↔ EscapedBody quote rest := by
  constructor
  · intro formed
    cases formed with
    | plain _ noSlash => exact absurd rfl noSlash
    | pair formed => exact formed
  · exact .pair

/-- The reader's test for bodies decides the grammar. -/
theorem isEscapedBody_iff
    {quote : Char}
    (noSlash : quote ≠ '\x5c')
    {body : Text} :
    isEscapedBody quote body = true ↔ EscapedBody quote body := by
  constructor
  · intro formed
    fun_induction isEscapedBody quote body with
    | case1 => exact .nil
    | case2 char =>
        simp only [ne_eq, decide_not, Bool.and_eq_true, Bool.not_eq_true',
          decide_eq_false_iff_not] at formed
        exact .plain formed.1 formed.2 .nil
    | case3 => simp at formed
    | case4 next rest _ ih => exact .pair (ih formed)
    | case5 char next rest other noSlash ih => exact .plain other noSlash (ih formed)
  · intro body
    induction body with
    | nil => rfl
    | @plain char rest other noSlash _ ih =>
        cases rest with
        | nil => simp [isEscapedBody, other, noSlash]
        | cons next rest => simpa [isEscapedBody, other, noSlash] using ih
    | @pair char rest _ ih => simpa [isEscapedBody, noSlash.symm] using ih

/-- Whether a text fits between single quotes is decided by reading it. -/
instance (body : Text) : Decidable (EscapedBody '\x27' body) :=
  decidable_of_iff _ (isEscapedBody_iff (by decide))

theorem plainBody?_eq_some_iff
    {quote : Char}
    {text body rest : Text} :
    plainBody? quote text = some (body, rest) ↔ text = body ++ quote :: rest ∧ quote ∉ body := by
  constructor
  · exact eq_append_of_plainBody?
  · rintro ⟨rfl, absent⟩
    exact plainBody?_append absent rest

theorem escapedBody?_eq_some_iff
    {quote : Char}
    (noSlash : quote ≠ '\x5c')
    {text body rest : Text} :
    escapedBody? quote text = some (body, rest) ↔
      text = body ++ quote :: rest ∧ EscapedBody quote body := by
  rw [← isEscapedBody_iff noSlash]
  constructor
  · intro read
    obtain ⟨whole, formed⟩ := eq_append_of_escapedBody? read
    exact ⟨whole, formed noSlash⟩
  · rintro ⟨rfl, formed⟩
    exact escapedBody?_append formed rest

/-- A body is closed by the quote behind it and by nothing else, whatever follows. -/
theorem forall_escapedBody?_iff
    {quote : Char}
    (noSlash : quote ≠ '\x5c')
    {body : Text} :
    (∀ rest, escapedBody? quote (body ++ quote :: rest) = some (body, rest)) ↔
      EscapedBody quote body := by
  constructor
  · intro closes
    exact ((escapedBody?_eq_some_iff noSlash).mp (closes [])).2
  · intro formed rest
    exact (escapedBody?_eq_some_iff noSlash).mpr ⟨rfl, formed⟩

theorem eq_or_eq_of_isQuote
    {quote : Char}
    (isQuote : isQuote quote = true) :
    quote = '\x27' ∨ quote = '\x22' := by
  simpa [Text.isQuote] using isQuote

theorem ne_slash_of_isQuote
    {quote : Char}
    (isQuote : isQuote quote = true) :
    quote ≠ '\x5c' := by
  rcases eq_or_eq_of_isQuote isQuote with rfl | rfl <;> decide

/-! ## Literals -/

/-- A body between two quotes that allow it. -/
inductive Literal (Body : Char → Text → Prop) : Text → Prop
  | quoted {quote : Char} {body : Text} :
      isQuote quote = true →
      Body quote body →
      Literal Body (quoted quote body)

/-- A literal whose body does not hold its quote. -/
abbrev PlainLiteral : Text → Prop :=
  Literal fun quote body => quote ∉ body

/-- A literal whose body is an escaped one. -/
abbrev EscapedLiteral : Text → Prop :=
  Literal EscapedBody

/-- A literal begins with a quote. -/
theorem Literal.eq_cons
    {Body : Char → Text → Prop}
    {literal : Text}
    (spelled : Literal Body literal) :
    ∃ quote inside, literal = quote :: inside ∧ isQuote quote = true := by
  cases spelled with
  | quoted isQuote => exact ⟨_, _, rfl, isQuote⟩

/-- A literal without its quotes is its body. -/
theorem unquote_quoted
    {quote : Char}
    (isQuote : isQuote quote = true)
    (body : Text) :
    unquote (quoted quote body) = (body, some quote) := by
  obtain ⟨second, rest, split⟩ : ∃ second rest, body ++ [quote] = second :: rest :=
    List.exists_cons_of_ne_nil (List.append_ne_nil_of_right_ne_nil body (List.cons_ne_nil _ _))
  rw [quoted, List.cons_append, split, unquote, ← split, List.getLast?_concat,
    List.dropLast_concat, if_pos ⟨isQuote, rfl⟩]

/-- A reader that finds the bodies finds the literals around them. -/
theorem literal?_eq_some_iff
    {body? : Char → Text → Option (Text × Text)}
    {Body : Char → Text → Prop}
    (reads : ∀ quote, isQuote quote = true → ∀ text body rest,
      body? quote text = some (body, rest) ↔ text = body ++ quote :: rest ∧ Body quote body)
    {text literal rest : Text} :
    literal? body? text = some (literal, rest) ↔ Literal Body literal ∧ text = literal ++ rest := by
  constructor
  · intro read
    cases text with
    | nil => simp [literal?] at read
    | cons quote inside =>
        rw [literal?] at read
        split at read
        next isQuote =>
          obtain ⟨⟨body, behind⟩, found, equal⟩ := Option.map_eq_some_iff.mp read
          simp only [Prod.mk.injEq] at equal
          obtain ⟨rfl, rfl⟩ := equal
          obtain ⟨rfl, spelled⟩ := (reads quote isQuote _ _ _).mp found
          exact ⟨.quoted isQuote spelled, by simp [quoted]⟩
        next => simp at read
  · rintro ⟨@⟨quote, body, isQuote, spelled⟩, rfl⟩
    have found : body? quote (body ++ quote :: rest) = some (body, rest) :=
      (reads quote isQuote _ _ _).mpr ⟨rfl, spelled⟩
    have whole : quoted quote body ++ rest = quote :: (body ++ quote :: rest) := by
      simp [quoted]
    rw [whole, literal?, if_pos isQuote, found, Option.map_some]

theorem plainLiteral?_eq_some_iff
    {text literal rest : Text} :
    plainLiteral? text = some (literal, rest) ↔ PlainLiteral literal ∧ text = literal ++ rest := by
  apply literal?_eq_some_iff
  intro quote _ text body rest
  exact plainBody?_eq_some_iff

theorem escapedLiteral?_eq_some_iff
    {text literal rest : Text} :
    escapedLiteral? text = some (literal, rest) ↔
      EscapedLiteral literal ∧ text = literal ++ rest := by
  apply literal?_eq_some_iff
  intro quote isQuote text body rest
  exact escapedBody?_eq_some_iff (ne_slash_of_isQuote isQuote)

/-! ## Escaping -/

theorem escapeQuotes_append (front behind : Text) :
    escapeQuotes (front ++ behind) = escapeQuotes front ++ escapeQuotes behind := by
  induction front with
  | nil => rfl
  | cons char front ih =>
      by_cases quote : char = '\x27' <;> simp [escapeQuotes, quote, ih]

theorem mem_of_mem_escapeQuotes
    {char : Char}
    {text : Text}
    (member : char ∈ escapeQuotes text) :
    char = '\x5c' ∨ char ∈ text := by
  induction text with
  | nil => simp [escapeQuotes] at member
  | cons head rest ih =>
      rw [escapeQuotes] at member
      split at member <;> simp only [List.mem_cons] at member ⊢ <;> grind

/-- A character at the front other than the backslash was not escaped. -/
theorem eq_cons_of_escapeQuotes
    {char : Char}
    (noSlash : char ≠ '\x5c')
    {text rest : Text}
    (escaped : escapeQuotes text = char :: rest) :
    char ≠ '\x27' ∧ ∃ tail, text = char :: tail ∧ rest = escapeQuotes tail := by
  cases text with
  | nil => simp [escapeQuotes] at escaped
  | cons head tail =>
      rw [escapeQuotes] at escaped
      split at escaped
      next =>
        injection escaped with same
        exact absurd same.symm noSlash
      next other =>
        injection escaped with same behind
        subst same
        exact ⟨other, tail, rfl, behind.symm⟩

/-- A cut through an escaped text goes between two characters or through an escaped quote. -/
theorem escapeQuotes_eq_append
    {text front behind : Text}
    (escaped : escapeQuotes text = front ++ behind) :
    (∃ first second, text = first ++ second ∧
        front = escapeQuotes first ∧ behind = escapeQuotes second) ∨
      ∃ first second, text = first ++ '\x27' :: second ∧
        front = escapeQuotes first ++ ['\x5c'] ∧ behind = '\x27' :: escapeQuotes second := by
  induction text generalizing front with
  | nil =>
      refine .inl ⟨[], [], rfl, ?_⟩
      simpa [escapeQuotes, eq_comm] using escaped
  | cons char rest ih =>
      cases front with
      | nil => exact .inl ⟨[], char :: rest, rfl, rfl, escaped.symm⟩
      | cons head front =>
          rw [escapeQuotes] at escaped
          split at escaped
          next quote =>
            subst quote
            injection escaped with slash inside
            subst slash
            cases front with
            | nil => exact .inr ⟨[], rest, rfl, rfl, inside.symm⟩
            | cons next front =>
                injection inside with quote inside
                subst quote
                rcases ih inside with
                  ⟨first, second, rfl, rfl, rfl⟩ | ⟨first, second, rfl, rfl, rfl⟩
                · exact .inl ⟨'\x27' :: first, second, rfl, rfl, rfl⟩
                · exact .inr ⟨'\x27' :: first, second, rfl, rfl, rfl⟩
          next other =>
            injection escaped with same inside
            subst same
            have kept (tail : Text) : escapeQuotes (char :: tail) = char :: escapeQuotes tail := by
              rw [escapeQuotes, if_neg other]
            rcases ih inside with ⟨first, second, rfl, rfl, rfl⟩ | ⟨first, second, rfl, rfl, rfl⟩
            · exact .inl ⟨char :: first, second, rfl, (kept first).symm, rfl⟩
            · exact .inr ⟨char :: first, second, rfl, by rw [kept, List.cons_append], rfl⟩

/-- In an escaped text every quote has a backslash right in front of it. -/
theorem slash_in_front_of_quote
    {text front behind : Text}
    (escaped : escapeQuotes text = front ++ '\x27' :: behind) :
    ∃ earlier, front = earlier ++ ['\x5c'] := by
  rcases escapeQuotes_eq_append escaped with ⟨_, second, -, -, tail⟩ | ⟨first, _, -, cut, -⟩
  · exact absurd rfl (eq_cons_of_escapeQuotes (by decide) tail.symm).1
  · exact ⟨escapeQuotes first, cut⟩

/-- Characters that are neighbours after escaping were neighbours before, backslashes apart. -/
theorem infix_of_escapeQuotes
    {first second : Char}
    (firstPlain : first ≠ '\x5c')
    (secondPlain : second ≠ '\x5c')
    (notQuote : first ≠ '\x27')
    {text : Text}
    (neighbours : [first, second] <:+: escapeQuotes text) :
    [first, second] <:+: text := by
  obtain ⟨front, behind, whole⟩ := neighbours
  rw [List.append_assoc] at whole
  rcases escapeQuotes_eq_append whole.symm with ⟨earlier, later, rfl, -, tail⟩ | ⟨_, _, -, -, tail⟩
  · obtain ⟨-, later, rfl, rest⟩ := eq_cons_of_escapeQuotes firstPlain tail.symm
    obtain ⟨-, later, rfl, -⟩ := eq_cons_of_escapeQuotes secondPlain rest.symm
    exact ⟨earlier, later, by simp⟩
  · injection tail with same
    exact absurd same notQuote

/-- Every quote in a body has a backslash right in front of it. -/
theorem EscapedBody.slash_in_front
    {quote : Char}
    (noSlash : quote ≠ '\x5c')
    {body front behind : Text}
    (formed : EscapedBody quote body)
    (whole : body = front ++ quote :: behind) :
    ∃ earlier, front = earlier ++ ['\x5c'] := by
  induction formed generalizing front with
  | nil => simp at whole
  | @plain char rest other _ _ ih =>
      rcases List.cons_eq_append_iff.mp whole with ⟨-, same⟩ | ⟨front, rfl, inside⟩
      · injection same with same
        exact absurd same.symm other
      · obtain ⟨earlier, rfl⟩ := ih inside
        exact ⟨char :: earlier, rfl⟩
  | @pair char rest _ ih =>
      rcases List.cons_eq_append_iff.mp whole with ⟨-, same⟩ | ⟨front, rfl, behindSlash⟩
      · injection same with same
        exact absurd same noSlash
      · rcases List.cons_eq_append_iff.mp behindSlash with ⟨rfl, -⟩ | ⟨inner, rfl, inside⟩
        · exact ⟨[], rfl⟩
        · obtain ⟨earlier, rfl⟩ := ih inside
          exact ⟨'\x5c' :: char :: earlier, rfl⟩

theorem EscapedBody.not_quote_first
    {quote : Char}
    (noSlash : quote ≠ '\x5c')
    {body : Text}
    (formed : EscapedBody quote body)
    (rest : Text) :
    body ≠ quote :: rest := by
  intro whole
  have first : body = [] ++ quote :: rest := whole
  obtain ⟨earlier, nothing⟩ := formed.slash_in_front noSlash first
  exact absurd nothing (by simp)

/-- A backslash stays unless a quote follows. -/
theorem unescapeQuotes_slash
    {text : Text}
    (noQuote : ∀ rest, text ≠ '\x27' :: rest) :
    unescapeQuotes ('\x5c' :: text) = '\x5c' :: unescapeQuotes text := by
  cases text with
  | nil => rfl
  | cons char rest =>
      have other : char ≠ '\x27' := by
        rintro rfl
        exact noQuote rest rfl
      simp [unescapeQuotes, other]

/-- Unescaping that leaves no quote has changed nothing. -/
theorem unescapeQuotes_eq_self
    {text : Text}
    (plain : '\x27' ∉ unescapeQuotes text) :
    unescapeQuotes text = text := by
  fun_induction unescapeQuotes text with
  | case1 => rfl
  | case2 => rfl
  | case3 => simp at plain
  | case4 char next rest _ ih =>
      rw [List.mem_cons, not_or] at plain
      rw [ih plain.2]

theorem mem_of_mem_unescapeQuotes
    {char : Char}
    {text : Text}
    (member : char ∈ unescapeQuotes text) :
    char ∈ text := by
  fun_induction unescapeQuotes text with
  | case1 => exact member
  | case2 => exact member
  | case3 first second rest escaped ih =>
      obtain ⟨rfl, rfl⟩ := escaped
      rcases List.mem_cons.mp member with rfl | later
      · simp
      · simp [ih later]
  | case4 first second rest _ ih =>
      rcases List.mem_cons.mp member with rfl | later
      · exact List.mem_cons_self
      · exact List.mem_cons_of_mem first (ih later)

/-- A character at the front other than the quote was there before. -/
theorem eq_cons_of_unescapeQuotes
    {char : Char}
    (noQuote : char ≠ '\x27')
    {text rest : Text}
    (unescaped : unescapeQuotes text = char :: rest) :
    ∃ tail, text = char :: tail ∧ rest = unescapeQuotes tail := by
  fun_cases unescapeQuotes text with
  | case1 => simp [unescapeQuotes] at unescaped
  | case2 only =>
      injection unescaped with same nothing
      exact ⟨[], by rw [same], nothing.symm⟩
  | case3 first second tail escaped =>
      rw [unescapeQuotes, if_pos escaped] at unescaped
      injection unescaped with same
      exact absurd same.symm noQuote
  | case4 first second tail kept =>
      rw [unescapeQuotes, if_neg kept] at unescaped
      injection unescaped with same behind
      exact ⟨second :: tail, by rw [same], behind.symm⟩

/-- Characters that are neighbours after unescaping were neighbours before, quotes apart. -/
theorem infix_of_unescapeQuotes
    {first second : Char}
    (firstPlain : first ≠ '\x27')
    (secondPlain : second ≠ '\x27')
    {text : Text}
    (neighbours : [first, second] <:+: unescapeQuotes text) :
    [first, second] <:+: text := by
  fun_induction unescapeQuotes text with
  | case1 => exact neighbours
  | case2 => exact neighbours
  | case3 _ _ rest escaped ih =>
      obtain ⟨rfl, rfl⟩ := escaped
      rcases List.infix_cons_iff.mp neighbours with ⟨_, atFront⟩ | inside
      · injection atFront with same
        exact absurd same firstPlain
      · exact (ih inside).trans ⟨['\x5c', '\x27'], [], by simp⟩
  | case4 head next rest kept ih =>
      rcases List.infix_cons_iff.mp neighbours with ⟨behind, atFront⟩ | inside
      · injection atFront with same later
        obtain ⟨tail, whole, -⟩ := eq_cons_of_unescapeQuotes secondPlain later.symm
        exact ⟨[], tail, by simp [same, whole]⟩
      · exact (ih inside).trans (List.suffix_cons head _).isInfix

/-- Unescaping does not touch the last character. -/
theorem getLast?_unescapeQuotes (text : Text) :
    (unescapeQuotes text).getLast? = text.getLast? := by
  fun_induction unescapeQuotes text with
  | case1 => rfl
  | case2 => rfl
  | case3 _ _ rest escaped ih => simp [List.getLast?_cons, ih, escaped.2]
  | case4 first second rest _ ih => simp [List.getLast?_cons, ih]

/-- In front of a body, only the pair of a backslash and a quote is unescaped. -/
theorem unescapeQuotes_pair
    {body : Text}
    (formed : EscapedBody '\x27' body)
    {char : Char}
    (other : char ≠ '\x27') :
    unescapeQuotes ('\x5c' :: char :: body) = '\x5c' :: char :: unescapeQuotes body := by
  have kept : unescapeQuotes (char :: body) = char :: unescapeQuotes body := by
    by_cases slash : char = '\x5c'
    · subst slash
      exact unescapeQuotes_slash (formed.not_quote_first (by decide))
    · exact unescapeQuotes_cons_of_ne slash body
  have apart : ∀ tail, char :: body ≠ '\x27' :: tail := by
    intro tail equal
    injection equal with same
    exact other same
  rw [unescapeQuotes_slash apart, kept]

/-! ## Quotes that are all escaped -/

/-- Every single quote has a backslash right in front of it. -/
def QuotesEscaped (text : Text) : Prop :=
  ∀ front behind, text = front ++ '\x27' :: behind → ∃ earlier, front = earlier ++ ['\x5c']

theorem quotesEscaped_escapeQuotes (text : Text) : QuotesEscaped (escapeQuotes text) :=
  fun _ _ whole => slash_in_front_of_quote whole

theorem EscapedBody.quotesEscaped
    {body : Text}
    (formed : EscapedBody '\x27' body) :
    QuotesEscaped body :=
  fun _ _ whole => formed.slash_in_front (by decide) whole

/-- No backslash stands in front of a quote at the beginning. -/
theorem QuotesEscaped.ne_cons
    {text : Text}
    (escaped : QuotesEscaped text)
    (rest : Text) :
    text ≠ '\x27' :: rest := by
  rintro rfl
  obtain ⟨earlier, nothing⟩ := escaped [] rest rfl
  simp at nothing

/-- Nothing else than a backslash stands in front of a quote. -/
theorem QuotesEscaped.eq_slash
    {char : Char}
    (front behind : Text)
    (escaped : QuotesEscaped (front ++ char :: '\x27' :: behind)) :
    char = '\x5c' := by
  obtain ⟨earlier, whole⟩ := escaped (front ++ [char]) behind (by simp)
  have same : [char] = ['\x5c'] := List.append_inj_right' whole rfl
  injection same

/-- What stands behind some of the text needs nothing of it, unless it begins with a quote. -/
theorem QuotesEscaped.of_append
    {text : Text}
    (front : Text)
    (escaped : QuotesEscaped (front ++ text))
    (noQuote : ∀ rest, text ≠ '\x27' :: rest) :
    QuotesEscaped text := by
  rintro inner behind rfl
  rcases List.eq_nil_or_concat inner with rfl | ⟨inner, last, rfl⟩
  · exact absurd rfl (noQuote behind)
  · have slash : last = '\x5c' :=
      QuotesEscaped.eq_slash (front ++ inner) behind (by simpa using escaped)
    exact ⟨inner, by rw [List.concat_eq_append, slash]⟩

/-- Escaping what was unescaped gives the text back, if every quote in it is an escaped one. -/
theorem QuotesEscaped.escapeQuotes_unescapeQuotes
    {text : Text}
    (escaped : QuotesEscaped text) :
    escapeQuotes (unescapeQuotes text) = text := by
  fun_induction unescapeQuotes text with
  | case1 => rfl
  | case2 char =>
      have other : char ≠ '\x27' := by
        rintro rfl
        exact escaped.ne_cons [] rfl
      rw [escapeQuotes, if_neg other, escapeQuotes]
  | case3 first second rest pair ih =>
      obtain ⟨rfl, rfl⟩ := pair
      -- A quote right behind the pair would have a quote in front of it.
      have noQuote : ∀ tail, rest ≠ '\x27' :: tail := by
        rintro tail rfl
        exact absurd (QuotesEscaped.eq_slash ['\x5c'] tail escaped) (by decide)
      have later : QuotesEscaped rest :=
        QuotesEscaped.of_append ['\x5c', '\x27'] escaped noQuote
      rw [escapeQuotes, if_pos rfl, ih later]
  | case4 first second rest apart ih =>
      have other : first ≠ '\x27' := by
        rintro rfl
        exact escaped.ne_cons (second :: rest) rfl
      have noQuote : ∀ tail, second :: rest ≠ '\x27' :: tail := by
        intro tail same
        injection same with same
        subst same
        exact apart ⟨QuotesEscaped.eq_slash [] rest escaped, rfl⟩
      have later : QuotesEscaped (second :: rest) :=
        QuotesEscaped.of_append [first] escaped noQuote
      rw [escapeQuotes, if_neg other, ih later]

/-- Escaping a body that was unescaped gives it back, because its quotes were all escaped. -/
theorem escapeQuotes_unescapeQuotes
    {body : Text}
    (formed : EscapedBody '\x27' body) :
    escapeQuotes (unescapeQuotes body) = body :=
  formed.quotesEscaped.escapeQuotes_unescapeQuotes

end Text
end Phrasebook
