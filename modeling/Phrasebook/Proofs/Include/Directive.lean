import Mathlib.Tactic.ByContra
import Phrasebook.Include.Directive

/-!
# Directives in texts

A directive opens with its only left angle bracket.  So no directive begins inside another one,
and text in front of a directive cannot be completed to a directive by it.  A search that tries
every position and one that goes on behind each directive it has found therefore find the same.
-/

namespace Phrasebook
namespace Include

/-- At least one space. -/
def spaces (more : Nat) : Text :=
  List.replicate (more + 1) ' '

/-- How a directive with a name is written. -/
inductive Spells (name : Text) : Text → Prop where
  /-- Any number of spaces, but at least one, stand on both sides of the name. -/
  | directive
      (before behind : Nat)
      (nonempty : name ≠ [])
      (characters : ∀ char ∈ name, isNameChar char = true) :
      Spells name
        ("<% include".toList ++ (spaces before ++ (name ++ (spaces behind ++ "%>".toList))))

/-- A directive with a name stands in a text between two positions. -/
def StandsAt (text : Text) (start stop : Nat) (name : Text) : Prop :=
  ∃ front directive rest, text = front ++ (directive ++ rest) ∧ start = front.length ∧
    stop = (front ++ directive).length ∧ Spells name directive

/--
What a search from left to right finds: the first directive of a text, and then what it finds in the
text behind that directive.
-/
inductive Finds : Text → List Text → Prop where
  /-- No directive stands in the text. -/
  | nothing
      {text : Text}
      (absent : ∀ start stop name, ¬StandsAt text start stop name) :
      Finds text []
  /-- The first directive comes before everything that is found behind it. -/
  | next
      {front directive rest name : Text}
      {others : List Text}
      (spelled : Spells name directive)
      (first : ∀ start stop other,
        StandsAt (front ++ (directive ++ rest)) start stop other → front.length ≤ start)
      (later : Finds rest others) :
      Finds (front ++ (directive ++ rest)) (name :: others)

/-! ## Reading a directive -/

theorem dropWhile_replicate_append
    {rest : Text}
    (stops : rest.head? ≠ some ' ')
    (count : Nat) :
    (List.replicate count ' ' ++ rest).dropWhile (· = ' ') = rest := by
  rw [List.dropWhile_append_of_pos (by simp)]
  cases rest with
  | nil => rfl
  | cons char rest =>
      have visible : char ≠ ' ' := fun same => stops (by rw [same, List.head?_cons])
      simp [visible]

theorem spaces?_append
    {rest : Text}
    (stops : rest.head? ≠ some ' ')
    (more : Nat) :
    spaces? (spaces more ++ rest) = some rest := by
  rw [spaces, List.replicate_succ, List.cons_append]
  exact congrArg some (dropWhile_replicate_append stops more)

theorem exists_spaces_of_spaces?
    {text rest : Text}
    (read : spaces? text = some rest) :
    ∃ more, text = spaces more ++ rest := by
  unfold spaces? at read
  split at read
  next behind =>
    obtain rfl := Option.some.inj read
    refine ⟨(behind.takeWhile (· = ' ')).length, ?_⟩
    have blank : behind.takeWhile (· = ' ') =
        List.replicate (behind.takeWhile (· = ' ')).length ' ' := by
      refine List.eq_replicate_of_mem fun char member => ?_
      simpa using List.all_eq_true.mp List.all_takeWhile char member
    rw [spaces, List.replicate_succ, List.cons_append, ← blank, List.takeWhile_append_dropWhile]
  next => cases read

/-- A name ends at the first space. -/
theorem takeWhile_dropWhile_name
    {name : Text}
    (characters : ∀ char ∈ name, isNameChar char = true)
    (more : Nat)
    (rest : Text) :
    (name ++ (spaces more ++ rest)).takeWhile isNameChar = name ∧
      (name ++ (spaces more ++ rest)).dropWhile isNameChar = spaces more ++ rest := by
  have stops : ¬isNameChar ' ' = true := by decide
  rw [List.takeWhile_append_of_pos characters, List.dropWhile_append_of_pos characters, spaces,
    List.replicate_succ, List.cons_append, List.takeWhile_cons_of_neg stops,
    List.dropWhile_cons_of_neg stops, List.append_nil]
  exact ⟨rfl, rfl⟩

/-- What is read is the name of a directive that the text begins with. -/
theorem directive?_eq_some_iff
    {text name : Text} :
    directive? text = some name ↔
      ∃ directive rest, text = directive ++ rest ∧ Spells name directive := by
  constructor
  · intro read
    simp only [directive?, Option.bind_eq_bind, Option.bind_eq_some_iff] at read
    obtain ⟨opened, opening, inner, spaced, closed, spacedBehind, rest, closing, read⟩ := read
    split at read
    · cases read
    next nonempty =>
      obtain rfl := Option.some.inj read
      obtain ⟨before, rfl⟩ := exists_spaces_of_spaces? spaced
      obtain ⟨behind, apart⟩ := exists_spaces_of_spaces? spacedBehind
      rw [Text.after?_eq_some_iff] at opening closing
      refine ⟨_, rest, ?_, .directive before behind nonempty
        (List.all_eq_true.mp List.all_takeWhile)⟩
      have whole := List.takeWhile_append_dropWhile (p := isNameChar) (l := inner)
      rw [apart, closing] at whole
      rw [opening]
      simp only [List.append_assoc, whole]
  · rintro ⟨_, rest, rfl, ⟨before, behind, nonempty, characters⟩⟩
    obtain ⟨taken, left⟩ := takeWhile_dropWhile_name characters behind ("%>".toList ++ rest)
    have noSpace : (name ++ (spaces behind ++ ("%>".toList ++ rest))).head? ≠ some ' ' := by
      obtain ⟨first, others, rfl⟩ := List.exists_cons_of_ne_nil nonempty
      rintro same
      obtain rfl := Option.some.inj same
      exact absurd (characters ' ' List.mem_cons_self) (by decide)
    have closing : "%>".toList = ['%', '>'] := by decide
    simp only [directive?, List.append_assoc, Text.after?_append, Option.bind_eq_bind,
      Option.bind_some, spaces?_append noSpace, taken, left]
    rw [spaces?_append (by simp [closing]), Option.bind_some, Text.after?_append, Option.bind_some,
      if_neg nonempty]

/-! ## Where directives begin -/

/-- A left angle bracket opens a directive, and there is none behind it. -/
theorem Spells.exists_cons
    {name directive : Text}
    (spelled : Spells name directive) :
    ∃ inside, directive = '<' :: inside ∧ '<' ∉ inside := by
  obtain ⟨before, behind, nonempty, characters⟩ := spelled
  have opening : "<% include".toList = '<' :: "% include".toList := by decide
  refine ⟨_, by rw [opening, List.cons_append], ?_⟩
  have notInOpening : '<' ∉ "% include".toList := by decide
  have notInName : '<' ∉ name := fun member => absurd (characters '<' member) (by decide)
  have notInClosing : '<' ∉ "%>".toList := by decide
  simp only [List.mem_append, spaces, List.mem_replicate, not_or]
  exact ⟨notInOpening, by simp, notInName, by simp, notInClosing⟩

/-- A directive that begins in front of a left angle bracket ends in front of it. -/
theorem Spells.eq_append_of_bracket
    {name directive front rest tail : Text}
    (spelled : Spells name directive)
    (nonempty : front ≠ [])
    (whole : directive ++ tail = front ++ '<' :: rest) :
    ∃ gap, front = directive ++ gap := by
  rcases List.append_eq_append_iff.mp whole with ⟨gap, same, -⟩ | ⟨gap, same, cut⟩
  · exact ⟨gap, same⟩
  · -- What the directive has in common with the text behind would hold the bracket.
    cases gap with
    | nil => exact ⟨[], by rw [same, List.append_nil, List.append_nil]⟩
    | cons char gap =>
        obtain ⟨inside, opened, absent⟩ := spelled.exists_cons
        obtain ⟨first, others, rfl⟩ := List.exists_cons_of_ne_nil nonempty
        obtain ⟨rfl, -⟩ := List.cons.inj cut
        rw [opened, List.cons_append] at same
        exact absurd (by simp [(List.cons.inj same).2]) absent

/-- Of two directives in a text the second begins behind the first. -/
theorem StandsAt.stop_le_start
    {text name other : Text}
    {start stop next last : Nat}
    (first : StandsAt text start stop name)
    (second : StandsAt text next last other)
    (less : start < next) :
    stop ≤ next := by
  obtain ⟨front, directive, rest, rfl, rfl, rfl, spelled⟩ := first
  obtain ⟨longer, behind, tail, whole, rfl, rfl, spelledSecond⟩ := second
  rcases List.append_eq_append_iff.mp whole with ⟨gap, rfl, cut⟩ | ⟨gap, rfl, -⟩
  · have apart : gap ≠ [] := by
      rintro rfl
      simp at less
    obtain ⟨inside, rfl, -⟩ := spelledSecond.exists_cons
    obtain ⟨rest, rfl⟩ := spelled.eq_append_of_bracket apart cut
    simp only [List.length_append]
    omega
  · simp only [List.length_append] at less
    omega

/-- A directive begins with a left angle bracket. -/
theorem directive?_cons_of_ne
    {char : Char}
    (other : char ≠ '<')
    (text : Text) :
    directive? (char :: text) = none := by
  rw [Option.eq_none_iff_forall_ne_some]
  intro name read
  obtain ⟨directive, rest, whole, spelled⟩ := directive?_eq_some_iff.mp read
  obtain ⟨inside, rfl, -⟩ := spelled.exists_cons
  exact other (List.cons.inj whole).1

/-- Whether a directive stands at a position does not depend on what follows a bracket behind it. -/
theorem directive?_append_bracket
    {front : Text}
    (nonempty : front ≠ [])
    (rest : Text) :
    directive? (front ++ '<' :: rest) = directive? front := by
  ext name
  rw [directive?_eq_some_iff, directive?_eq_some_iff]
  constructor
  · rintro ⟨directive, tail, whole, spelled⟩
    obtain ⟨gap, same⟩ := spelled.eq_append_of_bracket nonempty whole.symm
    exact ⟨directive, gap, same, spelled⟩
  · rintro ⟨directive, gap, rfl, spelled⟩
    exact ⟨directive, gap ++ '<' :: rest, by rw [List.append_assoc], spelled⟩

/-! ## Names -/

theorem names_append_bracket (front rest : Text) :
    names (front ++ '<' :: rest) = names front ++ names ('<' :: rest) := by
  induction front with
  | nil => rfl
  | cons char front ih =>
      have here := directive?_append_bracket (List.cons_ne_nil char front) rest
      rw [List.cons_append] at here ⊢
      rw [names, here, ih, ← List.append_assoc]
      rfl

/-- Text without left angle brackets includes nothing. -/
theorem names_append_of_not_mem
    {front : Text}
    (absent : '<' ∉ front)
    (rest : Text) :
    names (front ++ rest) = names rest := by
  induction front with
  | nil => rfl
  | cons char front ih =>
      rw [List.mem_cons, not_or] at absent
      rw [List.cons_append, names, directive?_cons_of_ne (Ne.symm absent.1), ih absent.2]
      rfl

/-- A directive comes between what stands in front of it and what stands behind it. -/
theorem names_append_directive
    {name directive : Text}
    (spelled : Spells name directive)
    (front rest : Text) :
    names (front ++ (directive ++ rest)) = names front ++ name :: names rest := by
  obtain ⟨inside, opened, absent⟩ := spelled.exists_cons
  have read : directive? (directive ++ rest) = some name :=
    directive?_eq_some_iff.mpr ⟨directive, rest, rfl, spelled⟩
  rw [opened, List.cons_append] at read ⊢
  rw [names_append_bracket, names, read, names_append_of_not_mem absent]
  rfl

/-- Where names are found, the first of them comes from a directive behind a text without names. -/
theorem exists_first_directive
    {text : Text}
    (nonempty : names text ≠ []) :
    ∃ front directive rest name, text = front ++ (directive ++ rest) ∧ Spells name directive ∧
      names front = [] := by
  induction text with
  | nil => exact absurd rfl nonempty
  | cons char text ih =>
      cases read : directive? (char :: text) with
      | some name =>
          obtain ⟨directive, rest, whole, spelled⟩ := directive?_eq_some_iff.mp read
          exact ⟨[], directive, rest, name, whole, spelled, rfl⟩
      | none =>
          rw [names, read] at nonempty
          obtain ⟨front, directive, rest, name, rfl, spelled, nothing⟩ := ih nonempty
          refine ⟨char :: front, directive, rest, name, rfl, spelled, ?_⟩
          obtain ⟨inside, rfl, -⟩ := spelled.exists_cons
          have here := directive?_append_bracket (List.cons_ne_nil char front) (inside ++ rest)
          rw [names, ← here, nothing, List.append_nil]
          exact congrArg Option.toList read

/-! ## Directives that stand in a text -/

namespace StandsAt

variable
  {text front name : Text}
  {start stop : Nat}

theorem start_lt_stop (stands : StandsAt text start stop name) : start < stop := by
  obtain ⟨front, directive, rest, -, rfl, rfl, spelled⟩ := stands
  obtain ⟨inside, rfl, -⟩ := spelled.exists_cons
  simp

theorem stop_le_length (stands : StandsAt text start stop name) : stop ≤ text.length := by
  obtain ⟨front, directive, rest, rfl, -, rfl, -⟩ := stands
  simp only [List.length_append]
  omega

theorem append (stands : StandsAt front start stop name) (behind : Text) :
    StandsAt (front ++ behind) start stop name := by
  obtain ⟨gap, directive, rest, rfl, begins, ends, spelled⟩ := stands
  exact ⟨gap, directive, rest ++ behind, by simp only [List.append_assoc], begins, ends, spelled⟩

/-- A directive that ends in the front of a text stands in this front. -/
theorem of_append
    {behind : Text}
    (stands : StandsAt (front ++ behind) start stop name)
    (inFront : stop ≤ front.length) :
    StandsAt front start stop name := by
  obtain ⟨gap, directive, rest, whole, begins, rfl, spelled⟩ := stands
  rw [← List.append_assoc] at whole
  rcases List.append_eq_append_iff.mp whole with ⟨more, same, -⟩ | ⟨more, rfl, -⟩
  · -- The directive goes on to the end of the front at most.
    rw [same, List.length_append] at inFront
    obtain rfl : more = [] := List.length_eq_zero_iff.mp (by omega)
    exact ⟨gap, directive, [], by rw [List.append_nil, same, List.append_nil], begins, rfl, spelled⟩
  · exact ⟨gap, directive, more, by rw [List.append_assoc], begins, rfl, spelled⟩

end StandsAt

theorem names_eq_nil_iff
    {text : Text} :
    names text = [] ↔ ∀ start stop name, ¬StandsAt text start stop name := by
  constructor
  · rintro nothing start stop name ⟨front, directive, rest, rfl, -, -, spelled⟩
    rw [names_append_directive spelled] at nothing
    simp at nothing
  · intro absent
    by_contra nonempty
    obtain ⟨front, directive, rest, name, whole, spelled, -⟩ := exists_first_directive nonempty
    exact absent _ _ name ⟨front, directive, rest, whole, rfl, rfl, spelled⟩

/-- The directive behind a text without names is the first one. -/
theorem names_eq_nil_iff_first
    {front directive rest name : Text}
    (spelled : Spells name directive) :
    names front = [] ↔ ∀ start stop other,
      StandsAt (front ++ (directive ++ rest)) start stop other → front.length ≤ start := by
  constructor
  · intro nothing start stop other stands
    by_contra before
    have here : StandsAt (front ++ (directive ++ rest)) front.length
        (front ++ directive).length name := ⟨front, directive, rest, rfl, rfl, rfl, spelled⟩
    have ends := stands.stop_le_start here (by omega)
    exact names_eq_nil_iff.mp nothing start stop other (stands.of_append ends)
  · intro first
    rw [names_eq_nil_iff]
    intro start stop other stands
    have behind := first start stop other (stands.append _)
    have := stands.start_lt_stop
    have := stands.stop_le_length
    omega

/-- A search that goes on behind each directive finds all names. -/
theorem finds_names (text : Text) : Finds text (names text) := by
  induction length : text.length using Nat.strongRecOn generalizing text with
  | _ count ih =>
      by_cases nothing : names text = []
      · rw [nothing]
        exact .nothing (names_eq_nil_iff.mp nothing)
      · obtain ⟨front, directive, rest, name, rfl, spelled, before⟩ :=
          exists_first_directive nothing
        have shorter : rest.length < count := by
          obtain ⟨inside, rfl, -⟩ := spelled.exists_cons
          simp only [List.length_append, List.length_cons] at length
          omega
        rw [names_append_directive spelled, before, List.nil_append]
        exact .next spelled ((names_eq_nil_iff_first spelled).mp before) (ih _ shorter rest rfl)

/-- Such a search finds nothing else. -/
theorem Finds.eq_names
    {text : Text}
    {found : List Text}
    (finds : Finds text found) :
    found = names text := by
  induction finds with
  | nothing absent => exact (names_eq_nil_iff.mpr absent).symm
  | next spelled first later ih =>
      rw [names_append_directive spelled, (names_eq_nil_iff_first spelled).mpr first, ← ih,
        List.nil_append]

/-- The names of a text with the positions of their directives, counted from a position. -/
def located (position : Nat) : Text → List (Nat × Text)
  | [] => []
  | char :: rest =>
      ((directive? (char :: rest)).map fun name => (position, name)).toList ++
        located (position + 1) rest

theorem map_located (position : Nat) (text : Text) :
    (located position text).map Prod.snd = names text := by
  induction text generalizing position with
  | nil => rfl
  | cons char rest ih =>
      rw [located, List.map_append, ih, names]
      cases directive? (char :: rest) <;> rfl

theorem mem_located
    {position start : Nat}
    {text name : Text} :
    (start, name) ∈ located position text ↔
      ∃ front rest, text = front ++ rest ∧ start = position + front.length ∧
        directive? rest = some name := by
  induction text generalizing position with
  | nil =>
      refine iff_of_false List.not_mem_nil ?_
      rintro ⟨front, rest, whole, -, read⟩
      obtain ⟨-, rfl⟩ := List.append_eq_nil_iff.mp whole.symm
      cases read
  | cons char text ih =>
      rw [located, List.mem_append, Option.mem_toList, Option.map_eq_some_iff, ih]
      constructor
      · rintro (⟨_, read, same⟩ | ⟨front, rest, rfl, rfl, read⟩)
        · obtain ⟨rfl, rfl⟩ := Prod.mk.inj same
          exact ⟨[], char :: text, rfl, rfl, read⟩
        · exact ⟨char :: front, rest, rfl, by rw [List.length_cons]; omega, read⟩
      · rintro ⟨front, rest, whole, rfl, read⟩
        cases front with
        | nil => exact .inl ⟨name, whole ▸ read, rfl⟩
        | cons first front =>
            obtain ⟨rfl, rfl⟩ := List.cons.inj whole
            exact .inr ⟨front, rest, rfl, by rw [List.length_cons]; omega, read⟩

theorem pairwise_located (position : Nat) (text : Text) :
    (located position text).Pairwise fun first second => first.1 < second.1 := by
  induction text generalizing position with
  | nil => exact .nil
  | cons char text ih =>
      rw [located, List.pairwise_append]
      refine ⟨?_, ih (position + 1), ?_⟩
      · cases directive? (char :: text) <;> simp
      · intro first here second later
        rw [Option.mem_toList, Option.map_eq_some_iff] at here
        obtain ⟨_, -, rfl⟩ := here
        obtain ⟨front, -, -, start, -⟩ := mem_located.mp later
        omega

theorem exists_standsAt_iff
    {text name : Text}
    {start : Nat} :
    (∃ stop, StandsAt text start stop name) ↔
      ∃ front rest, text = front ++ rest ∧ start = 0 + front.length ∧
        directive? rest = some name := by
  simp only [directive?_eq_some_iff, Nat.zero_add]
  constructor
  · rintro ⟨_, front, directive, rest, rfl, rfl, rfl, spelled⟩
    exact ⟨front, directive ++ rest, rfl, rfl, directive, rest, rfl, spelled⟩
  · rintro ⟨front, _, rfl, rfl, directive, rest, rfl, spelled⟩
    exact ⟨_, front, directive, rest, rfl, rfl, rfl, spelled⟩

/--
The names of a text are those of the directives that stand in it, one for each position at which a
directive begins, in the order of the positions.  No directive begins before the end of an earlier
one, so a search that goes on behind each directive finds the same names, and a directive that is
written between two texts comes between the names of these.
-/
theorem names_are_of_directives (text : Text) :
    (∃ found : List (Nat × Text),
        (found.Pairwise fun first second => first.1 < second.1) ∧
          (∀ start name, (start, name) ∈ found ↔ ∃ stop, StandsAt text start stop name) ∧
          found.map Prod.snd = names text) ∧
      (∀ start stop name next last other, StandsAt text start stop name →
        StandsAt text next last other → start < next → stop ≤ next) ∧
      (∀ found, Finds text found ↔ found = names text) ∧
      ∀ front directive rest name, Spells name directive →
        names (front ++ directive ++ rest) = names front ++ [name] ++ names rest := by
  refine ⟨⟨located 0 text, pairwise_located 0 text, fun start name => ?_, map_located 0 text⟩,
    fun _ _ _ _ _ _ first second less => first.stop_le_start second less,
    fun found => ⟨Finds.eq_names, ?_⟩, fun front directive rest name spelled => ?_⟩
  · rw [mem_located, exists_standsAt_iff]
  · rintro rfl
    exact finds_names text
  · rw [List.append_assoc, names_append_directive spelled, List.append_assoc,
      List.singleton_append]

example : names "<% include Header %> <%include No%> <% include <% include  Side_2 %>%>".toList =
    ["Header".toList, "Side_2".toList] := by
  decide

end Include
end Phrasebook
