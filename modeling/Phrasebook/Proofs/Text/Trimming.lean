import Phrasebook.Text.Blank

/-!
# Runs of blanks

Cutting blanks off a text only looks at its ends: a visible character at the end of the cut part
protects everything behind it.  A text is its own trimming exactly when neither of its ends is
blank, and trimming twice is trimming once.  The visible characters are the same before and after.
-/

namespace Phrasebook
namespace Text

/-- A text without visible characters. -/
def Blank (text : Text) : Prop :=
  ∀ char ∈ text, isBlank char = true

instance (text : Text) : Decidable (Blank text) :=
  decidable_of_iff (text.all isBlank = true) List.all_eq_true

theorem Blank.nil : Blank [] := by
  simp [Blank]

theorem Blank.not_mem
    {text : Text}
    (blank : Blank text)
    {char : Char}
    (visible : isBlank char = false) :
    char ∉ text := by
  intro member
  have blankChar := blank char member
  rw [visible] at blankChar
  exact absurd blankChar (by simp)

theorem Blank.blanks (text : Text) : Blank (blanks text) :=
  blanks_all text

@[simp] theorem trimStart_nil : trimStart [] = [] :=
  rfl

theorem trimStart_cons_of_visible
    {char : Char}
    (visible : isBlank char = false)
    (rest : Text) :
    trimStart (char :: rest) = char :: rest := by
  simp [trimStart, visible]

theorem trimStart_append_of_blank
    {front : Text}
    (blank : Blank front)
    (rest : Text) :
    trimStart (front ++ rest) = trimStart rest :=
  List.dropWhile_append_of_pos blank

theorem trimStart_append_cons
    {front : Text}
    (blank : Blank front)
    {char : Char}
    (visible : isBlank char = false)
    (rest : Text) :
    trimStart (front ++ char :: rest) = char :: rest := by
  rw [trimStart_append_of_blank blank, trimStart_cons_of_visible visible]

/-- A text is cut down to a rest by the blanks that stand in front of it. -/
theorem eq_append_of_trimStart
    {text rest : Text}
    (cut : trimStart text = rest) :
    ∃ front, Blank front ∧ text = front ++ rest :=
  ⟨blanks text, .blanks text, by rw [← cut, blanks_append_trimStart]⟩

/-- A visible character keeps everything behind it. -/
theorem trimStart_append_of_visible
    {char : Char}
    (visible : isBlank char = false)
    (front rest : Text) :
    trimStart (front ++ [char] ++ rest) = trimStart (front ++ [char]) ++ rest := by
  induction front with
  | nil => simp [trimStart, visible]
  | cons head front ih =>
      by_cases blank : isBlank head = true
      · simpa [trimStart, blank] using ih
      · simp [trimStart, blank]

theorem trimStart_suffix (text : Text) : trimStart text <:+ text :=
  List.dropWhile_suffix isBlank

theorem trimEnd_isBeginning (text : Text) : trimEnd text <+: text := by
  rw [trimEnd, ← List.reverse_suffix, List.reverse_reverse]
  exact trimStart_suffix text.reverse

theorem trimStart_eq_self_iff
    {text : Text} :
    trimStart text = text ↔ ∀ char rest, text = char :: rest → isBlank char = false := by
  constructor
  · intro same char rest equal
    exact trimStart_head (same.trans equal)
  · intro visible
    cases text with
    | nil => rfl
    | cons char rest => exact trimStart_cons_of_visible (visible char rest rfl) rest

theorem trimEnd_eq_self_iff
    {text : Text} :
    trimEnd text = text ↔ ∀ front char, text = front ++ [char] → isBlank char = false := by
  rw [trimEnd, List.reverse_eq_iff, trimStart_eq_self_iff]
  constructor
  · intro visible front char equal
    apply visible char front.reverse
    simp [equal]
  · intro visible char rest equal
    apply visible rest.reverse char
    rw [← List.reverse_reverse text, equal, List.reverse_cons]

theorem trim_eq_self_iff
    {text : Text} :
    trim text = text ↔ trimStart text = text ∧ trimEnd text = text := by
  constructor
  · intro same
    have first : trimStart text = text := by
      apply (trimStart_suffix text).eq_of_length_le
      have shorter := (trimEnd_isBeginning (trimStart text)).length_le
      rw [trim] at same
      rwa [same] at shorter
    rw [trim, first] at same
    exact ⟨first, same⟩
  · rintro ⟨first, last⟩
    rw [trim, first, last]

/-- Trimming the end does not uncover a blank at the front. -/
theorem trimStart_trimEnd
    {text : Text}
    (cut : trimStart text = text) :
    trimStart (trimEnd text) = trimEnd text := by
  rw [trimStart_eq_self_iff] at cut ⊢
  intro char rest equal
  obtain ⟨behind, whole⟩ := trimEnd_isBeginning text
  rw [equal] at whole
  exact cut char (rest ++ behind) (by simp [← whole])

theorem trimStart_trimStart (text : Text) : trimStart (trimStart text) = trimStart text :=
  trimStart_eq_self_iff.mpr fun _ _ equal => trimStart_head equal

theorem trimEnd_trimEnd (text : Text) : trimEnd (trimEnd text) = trimEnd text := by
  simp [trimEnd, trimStart_trimStart]

@[simp] theorem trim_trim (text : Text) : trim (trim text) = trim text := by
  rw [trim_eq_self_iff]
  refine ⟨?_, ?_⟩
  · exact trimStart_trimEnd (trimStart_trimStart text)
  · exact trimEnd_trimEnd (trimStart text)

theorem trimStart_eq_nil_iff
    {text : Text} :
    trimStart text = [] ↔ Blank text := by
  constructor
  · intro nothing
    rw [← blanks_append_trimStart text, nothing, List.append_nil]
    exact Blank.blanks text
  · intro blank
    rw [← List.append_nil text, trimStart_append_of_blank blank, trimStart_nil]

theorem trim_eq_nil_iff
    {text : Text} :
    trim text = [] ↔ Blank text := by
  have reversed : Blank (trimStart text).reverse ↔ Blank (trimStart text) := by
    simp [Blank]
  rw [trim, trimEnd, List.reverse_eq_nil_iff, trimStart_eq_nil_iff, reversed]
  constructor
  · intro blank
    rw [← blanks_append_trimStart text]
    intro char member
    rcases List.mem_append.mp member with front | behind
    · exact blanks_all text char front
    · exact blank char behind
  · intro blank char member
    exact blank char ((trimStart_suffix text).mem member)

theorem trimEnd_append_of_blank
    {behind : Text}
    (blank : Blank behind)
    (text : Text) :
    trimEnd (text ++ behind) = trimEnd text := by
  have reversed : Blank behind.reverse := by
    intro char member
    exact blank char (List.mem_reverse.mp member)
  rw [trimEnd, List.reverse_append, trimStart_append_of_blank reversed, trimEnd]

/-- Blanks around a text are cut off with its own. -/
theorem trim_append_of_blank
    {front behind : Text}
    (blankFront : Blank front)
    (blankBehind : Blank behind)
    (text : Text) :
    trim (front ++ (text ++ behind)) = trim text := by
  rw [trim, trimStart_append_of_blank blankFront, trimStart, List.dropWhile_append]
  split
  next nothing =>
    have blank : Blank text := trimStart_eq_nil_iff.mp (List.isEmpty_iff.mp nothing)
    have behindCut : behind.dropWhile isBlank = [] := trimStart_eq_nil_iff.mpr blankBehind
    rw [behindCut, trim_eq_nil_iff.mpr blank]
    rfl
  next => exact trimEnd_append_of_blank blankBehind (trimStart text)

/-! ## Dropping blanks inside -/

theorem trimStart_filter
    {keep : Char → Bool}
    (keepsVisible : ∀ char, isBlank char = false → keep char = true)
    (text : Text) :
    trimStart (text.filter keep) = (trimStart text).filter keep := by
  induction text with
  | nil => rfl
  | cons char rest ih =>
      cases blank : isBlank char with
      | true =>
          have cut (behind : Text) : trimStart (char :: behind) = trimStart behind := by
            simp [trimStart, blank]
          rw [List.filter_cons, cut]
          split
          · rw [cut, ih]
          · exact ih
      | false =>
          rw [List.filter_cons, if_pos (keepsVisible char blank), trimStart_cons_of_visible blank,
            trimStart_cons_of_visible blank, List.filter_cons, if_pos (keepsVisible char blank)]

/-- Trimming and dropping blanks of some kind may be done in either order. -/
theorem trim_filter
    {keep : Char → Bool}
    (keepsVisible : ∀ char, isBlank char = false → keep char = true)
    (text : Text) :
    trim (text.filter keep) = (trim text).filter keep := by
  rw [trim, trimStart_filter keepsVisible, trimEnd, ← List.filter_reverse,
    trimStart_filter keepsVisible, ← List.filter_reverse, trim, trimEnd]

/-! ## Visible characters -/

/-- The characters of a text that are not blank, in their order. -/
def visibleChars (text : Text) : Text :=
  text.filter fun char => !isBlank char

theorem visibleChars_append (front behind : Text) :
    visibleChars (front ++ behind) = visibleChars front ++ visibleChars behind :=
  List.filter_append front behind

theorem visibleChars_of_blank
    {text : Text}
    (blank : Blank text) :
    visibleChars text = [] := by
  rw [visibleChars, List.filter_eq_nil_iff]
  intro char member
  simp [blank char member]

/-- Dropping blanks of some kind is not visible. -/
theorem visibleChars_filter
    {keep : Char → Bool}
    (keepsVisible : ∀ char, isBlank char = false → keep char = true)
    (text : Text) :
    visibleChars (text.filter keep) = visibleChars text := by
  rw [visibleChars, List.filter_filter, visibleChars]
  refine List.filter_congr fun char _ => ?_
  cases blank : isBlank char with
  | true => rfl
  | false => simp [keepsVisible char blank]

theorem visibleChars_trimStart (text : Text) :
    visibleChars (trimStart text) = visibleChars text := by
  have whole := congrArg visibleChars (blanks_append_trimStart text)
  rwa [visibleChars_append, visibleChars_of_blank (.blanks text), List.nil_append] at whole

/-- Trimming takes nothing visible away. -/
theorem visibleChars_trim (text : Text) : visibleChars (trim text) = visibleChars text := by
  have reversed (text : Text) : visibleChars text.reverse = (visibleChars text).reverse :=
    List.filter_reverse
  rw [trim, trimEnd, reversed, visibleChars_trimStart, reversed, List.reverse_reverse,
    visibleChars_trimStart]

/-! ## Visible ends -/

/-- The last character of the text is visible. -/
def EndsVisible (text : Text) : Prop :=
  ∃ front char, text = front ++ [char] ∧ isBlank char = false

namespace EndsVisible

theorem trimStart_append
    {text : Text}
    (visible : EndsVisible text)
    (rest : Text) :
    trimStart (text ++ rest) = trimStart text ++ rest := by
  obtain ⟨front, char, rfl, visible⟩ := visible
  exact trimStart_append_of_visible visible front rest

theorem trimStart_ne_nil
    {text : Text}
    (visible : EndsVisible text) :
    trimStart text ≠ [] := by
  obtain ⟨front, char, rfl, visible⟩ := visible
  intro nothing
  have whole := blanks_append_trimStart (front ++ [char])
  rw [nothing, List.append_nil] at whole
  exact (Blank.blanks (front ++ [char])).not_mem visible (by rw [whole]; simp)

theorem of_suffix
    {suffix text : Text}
    (visible : EndsVisible text)
    (isSuffix : suffix <:+ text)
    (nonempty : suffix ≠ []) :
    EndsVisible suffix := by
  obtain ⟨front, char, rfl, visible⟩ := visible
  obtain ⟨earlier, whole⟩ := isSuffix
  refine ⟨suffix.dropLast, char, ?_, visible⟩
  rw [← List.dropLast_concat_getLast nonempty, ← List.append_assoc] at whole
  rw [← List.append_inj_right' whole rfl, List.dropLast_concat_getLast]

theorem of_trim_eq_self
    {text : Text}
    (trimmed : trim text = text)
    (nonempty : text ≠ []) :
    EndsVisible text := by
  have last := trimEnd_eq_self_iff.mp (trim_eq_self_iff.mp trimmed).2
  have whole := List.dropLast_concat_getLast nonempty
  exact ⟨_, _, whole.symm, last _ _ whole.symm⟩

end EndsVisible

/-- A text with blanks behind a character ends with a blank or with that character. -/
theorem append_cons_ne_concat
    {gap : Text}
    (blank : Blank gap)
    {char last : Char}
    (visible : isBlank last = false)
    (other : char ≠ last)
    (front earlier : Text) :
    front ++ char :: gap ≠ earlier ++ [last] := by
  intro same
  rcases List.eq_nil_or_concat gap with rfl | ⟨gap, final, rfl⟩
  · have ends : [char] = [last] := List.append_inj_right' same rfl
    injection ends with ends
    exact other ends
  · rw [List.concat_eq_append, ← List.cons_append, ← List.append_assoc] at same
    have ends : [final] = [last] := List.append_inj_right' same rfl
    injection ends with ends
    exact blank.not_mem visible (by simp [ends])

/-- A visible character in a text with blanks behind stands in the text itself. -/
theorem exists_eq_append_of_append_blank
    {text gap front rest : Text}
    (blank : Blank gap)
    {char : Char}
    (visible : isBlank char = false)
    (whole : text ++ gap = front ++ char :: rest) :
    ∃ behind, text = front ++ char :: behind := by
  have outside := blank.not_mem visible
  rcases List.append_eq_append_iff.mp whole with ⟨inner, -, cut⟩ | ⟨inner, rfl, cut⟩
  · exact absurd (by simp [cut]) outside
  · cases inner with
    | nil =>
        rw [List.nil_append] at cut
        exact absurd (cut ▸ List.mem_cons_self) outside
    | cons head inner =>
        injection cut with same
        exact ⟨inner, by rw [same]⟩

/-- What is left by trimming occurs in the text. -/
theorem mem_of_mem_trim
    {char : Char}
    {text : Text}
    (member : char ∈ trim text) :
    char ∈ text :=
  (trimStart_suffix text).mem ((trimEnd_isBeginning (trimStart text)).mem member)

end Text
end Phrasebook
