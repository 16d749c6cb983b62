import Phrasebook.Path

/-!
# Last components of paths

Whatever a path is joined to, a plain name at its end is its last component.  A last component is
always plain, so neither it nor its suffix has a slash.
-/

namespace Phrasebook

namespace Text

section Pieces

variable {Item : Type} [DecidableEq Item] {separator : Item}

theorem splitAt_append_cons
    (separator : Item)
    (front behind : List Item) :
    splitAt separator (front ++ separator :: behind) =
      splitAt separator front ++ splitAt separator behind := by
  induction front with
  | nil => simp [splitAt]
  | cons char front ih =>
      rw [List.cons_append, splitAt, splitAt, ih]
      split
      · rw [List.cons_append]
      · cases pieces : splitAt separator front with
        | nil => exact absurd pieces (splitAt_ne_nil separator front)
        | cons piece others => rfl

theorem exists_splitAt_cons
    {char : Item}
    (other : char ≠ separator)
    (text : List Item) :
    ∃ piece pieces, splitAt separator (char :: text) = (char :: piece) :: pieces := by
  cases split : splitAt separator text with
  | nil => exact absurd split (splitAt_ne_nil separator text)
  | cons piece pieces => exact ⟨piece, pieces, by rw [splitAt, if_neg other, split]⟩

theorem splitAt_of_not_mem
    {text : List Item}
    (absent : separator ∉ text) :
    splitAt separator text = [text] := by
  induction text with
  | nil => rfl
  | cons char text ih =>
      rw [List.mem_cons, not_or] at absent
      rw [splitAt, if_neg (Ne.symm absent.1), ih absent.2]

/-- A text without separators lengthens the last piece of a text before it. -/
theorem exists_splitAt_append
    {behind : List Item}
    (absent : separator ∉ behind)
    (front : List Item) :
    ∃ pieces last, splitAt separator front = pieces ++ [last] ∧
      splitAt separator (front ++ behind) = pieces ++ [last ++ behind] := by
  induction front with
  | nil => exact ⟨[], [], rfl, splitAt_of_not_mem absent⟩
  | cons char front ih =>
      obtain ⟨pieces, last, split, longer⟩ := ih
      by_cases same : char = separator
      · refine ⟨[] :: pieces, last, ?_, ?_⟩
        · rw [splitAt, if_pos same, split, List.cons_append]
        · rw [List.cons_append, splitAt, if_pos same, longer, List.cons_append]
      · rw [List.cons_append, splitAt, splitAt, if_neg same, if_neg same, split, longer]
        cases pieces with
        | nil => exact ⟨[], char :: last, rfl, rfl⟩
        | cons piece pieces => exact ⟨(char :: piece) :: pieces, last, rfl, rfl⟩

end Pieces

end Text

namespace Path

theorem components_of_splitAt
    {path : Path}
    {first : Bytes}
    {rest : List Bytes}
    (split : Text.splitAt slash path.bytes = first :: rest) :
    path.components =
      (firstComponent? first rest).toList ++ rest.filterMap innerComponent? := by
  simp only [components, parts, split, List.filterMap_cons, List.filterMap_map]
  cases firstComponent? first rest <;> rfl

/-- A name is neither empty nor a run of dots with a meaning, and has no slash. -/
structure IsPlainName (name : Bytes) : Prop where
  nonempty : name ≠ []
  notHere : name ≠ [dot]
  notUp : name ≠ [dot, dot]
  noSlash : slash ∉ name

variable {name : Bytes}

theorem innerComponent?_of_isPlainName (plain : IsPlainName name) :
    innerComponent? name = some (.name name) := by
  simp [innerComponent?, plain.nonempty, plain.notHere, plain.notUp]

theorem components_of_isPlainName (plain : IsPlainName name) :
    components ⟨name⟩ = [.name name] := by
  rw [components_of_splitAt (Text.splitAt_of_not_mem plain.noSlash), firstComponent?,
    if_neg plain.nonempty, if_neg plain.notHere, innerComponent?_of_isPlainName plain]
  rfl

theorem IsPlainName.head?_ne (plain : IsPlainName name) : name.head? ≠ some slash := by
  intro slash
  obtain ⟨rest, rfl⟩ := List.head?_eq_some_iff.mp slash
  exact plain.noSlash List.mem_cons_self

/-- A plain name with a dot and a suffix behind it is plain. -/
theorem IsPlainName.append_dot
    {suffix : Bytes}
    (plain : IsPlainName name)
    (noSlash : slash ∉ suffix) :
    IsPlainName (name ++ dot :: suffix) := by
  obtain ⟨first, rest, rfl⟩ := List.exists_cons_of_ne_nil plain.nonempty
  refine ⟨by simp, by simp, fun up => ?_, fun inside => ?_⟩
  · rw [List.cons_append, List.cons.injEq, List.append_eq_singleton_iff] at up
    obtain ⟨rfl, ⟨rfl, -⟩ | ⟨-, impossible⟩⟩ := up
    · exact plain.notHere rfl
    · cases impossible
  · rcases List.mem_append.mp inside with inName | inSuffix
    · exact plain.noSlash inName
    · exact noSlash (List.mem_of_ne_of_mem (by decide) inSuffix)

/-- A joined path has the pieces of its base, less an empty one at their end, and those behind. -/
theorem splitAt_join_of_relative
    {child : Bytes}
    (base : Path)
    (relative : child.head? ≠ some slash) :
    ∃ front, Text.splitAt slash (base.join child).bytes = front ++ Text.splitAt slash child ∧
      (Text.splitAt slash base.bytes = front ∧ base.bytes ≠ [] ∨
        Text.splitAt slash base.bytes = front ++ [[]]) := by
  unfold join
  by_cases empty : base.bytes = []
  · rw [if_pos (.inr empty)]
    exact ⟨[], rfl, .inr (by rw [empty]; rfl)⟩
  · rw [if_neg (not_or.mpr ⟨relative, empty⟩)]
    split
    next ends =>
      obtain ⟨front, whole⟩ := List.getLast?_eq_some_iff.mp ends
      refine ⟨Text.splitAt slash front, ?_, .inr ?_⟩
      · rw [whole, List.append_assoc, List.singleton_append, Text.splitAt_append_cons]
      · rw [whole, Text.splitAt_append_cons]
        rfl
    next =>
      refine ⟨Text.splitAt slash base.bytes, ?_, .inl ⟨rfl, empty⟩⟩
      rw [Text.splitAt_append_cons]

/-- A path with a name joined to it has the name as its last piece. -/
theorem splitAt_join
    (base : Path)
    (plain : IsPlainName name) :
    ∃ front, Text.splitAt slash (base.join name).bytes = front ++ [name] ∧
      (Text.splitAt slash base.bytes = front ∧ base.bytes ≠ [] ∨
        Text.splitAt slash base.bytes = front ++ [[]]) := by
  have joined := splitAt_join_of_relative base plain.head?_ne
  rwa [Text.splitAt_of_not_mem plain.noSlash] at joined

theorem bytes_join_ne_nil
    (base : Path)
    (plain : IsPlainName name) :
    (base.join name).bytes ≠ [] := by
  obtain ⟨front, joined, -⟩ := splitAt_join base plain
  intro nothing
  rw [nothing] at joined
  have alone := congrArg List.getLast? joined
  rw [List.getLast?_concat] at alone
  exact plain.nonempty (Option.some.inj alone).symm

/-- A joined path ends with what is joined to it. -/
theorem exists_bytes_join (base : Path) (child : Bytes) :
    ∃ front, (base.join child).bytes = front ++ child := by
  unfold join
  split
  · exact ⟨[], rfl⟩
  · split
    · exact ⟨base.bytes, rfl⟩
    · exact ⟨base.bytes ++ [slash], by simp⟩

/-- A joined path begins with its base, unless that is empty. -/
theorem prefix_join
    {base : Path}
    {child : Bytes}
    (nonempty : base.bytes ≠ [])
    (relative : child.head? ≠ some slash) :
    base.bytes <+: (base.join child).bytes := by
  unfold join
  rw [if_neg (not_or.mpr ⟨relative, nonempty⟩)]
  split
  · exact List.prefix_append base.bytes child
  · exact List.prefix_append base.bytes (slash :: child)

theorem isAbsolute_join
    {child : Bytes}
    (base : Path)
    (relative : child.head? ≠ some slash) :
    (base.join child).isAbsolute = base.isAbsolute := by
  have notAbsolute : Path.isAbsolute ⟨child⟩ = false := by
    simpa [isAbsolute] using relative
  unfold join
  by_cases empty : base.bytes = []
  · rw [if_pos (.inr empty), notAbsolute, isAbsolute, empty]
    rfl
  · rw [if_neg (not_or.mpr ⟨relative, empty⟩)]
    obtain ⟨first, rest, whole⟩ := List.exists_cons_of_ne_nil empty
    split <;> simp [isAbsolute, whole]

/-- A joined path takes one step more than its base. -/
@[simp]
theorem components_join
    (base : Path)
    (plain : IsPlainName name) :
    (base.join name).components = base.components ++ [.name name] := by
  obtain ⟨front, joined, original⟩ := splitAt_join base plain
  have last : [name].filterMap innerComponent? = [.name name] := by
    simp [innerComponent?_of_isPlainName plain]
  cases front with
  | nil =>
      rcases original with ⟨nothing, -⟩ | empty
      · exact absurd nothing (Text.splitAt_ne_nil slash base.bytes)
      · have whole : base.join name = ⟨name⟩ := by
          rw [Path.mk.injEq, ← Text.joinWith_splitAt slash (base.join name).bytes, joined]
          rfl
        rw [whole, components_of_isPlainName plain, components_of_splitAt empty]
        rfl
  | cons first rest =>
      rw [List.cons_append] at joined
      rw [components_of_splitAt joined, List.filterMap_append, last, ← List.append_assoc]
      rcases original with ⟨same, nonempty⟩ | longer
      · have notAlone : ¬(first = [] ∧ rest = []) := by
          rintro ⟨rfl, rfl⟩
          apply nonempty
          rw [← Text.joinWith_splitAt slash base.bytes, same]
          rfl
        rw [components_of_splitAt same]
        by_cases empty : first = [] <;> simp_all [firstComponent?]
      · rw [components_of_splitAt longer]
        simp [firstComponent?, innerComponent?]

theorem fileName?_eq_of_components
    {first second : Path}
    (same : first.components = second.components) :
    first.fileName? = second.fileName? := by
  rw [fileName?, fileName?, same]

/-- A path joined to another one ends with its name. -/
theorem fileName?_join
    (base : Path)
    (plain : IsPlainName name) :
    (base.join name).fileName? = some name := by
  rw [fileName?, components_join base plain, List.getLast?_concat]

theorem isPlainName_of_innerComponent?
    {piece : Bytes}
    (noSlash : slash ∉ piece)
    (meaning : innerComponent? piece = some (.name name)) :
    IsPlainName name := by
  unfold innerComponent? at meaning
  split at meaning
  next => simp at meaning
  next something =>
    rw [not_or] at something
    split at meaning
    next => simp at meaning
    next notUp =>
      injection meaning with same
      injection same with same
      subst same
      exact ⟨something.1, something.2, notUp, noSlash⟩

theorem innerComponent?_of_firstComponent?
    {first : Bytes}
    {rest : List Bytes}
    (meaning : firstComponent? first rest = some (.name name)) :
    innerComponent? first = some (.name name) := by
  unfold firstComponent? at meaning
  split at meaning
  next => split at meaning <;> simp at meaning
  next =>
    split at meaning
    next => simp at meaning
    next => exact meaning

/-- The last component of a path is a plain name, if it is a name. -/
theorem isPlainName_of_fileName?
    {path : Path}
    (named : path.fileName? = some name) :
    IsPlainName name := by
  unfold fileName? at named
  split at named
  next name last =>
    injection named with same
    subst same
    have member := List.mem_of_getLast? last
    cases split : Text.splitAt slash path.bytes with
    | nil => exact absurd split (Text.splitAt_ne_nil slash path.bytes)
    | cons first rest =>
        rw [components_of_splitAt split, List.mem_append, List.mem_filterMap,
          Option.mem_toList] at member
        rcases member with front | ⟨piece, inside, meaning⟩
        · have noSlash := Text.separator_not_mem (split ▸ List.mem_cons_self)
          exact isPlainName_of_innerComponent? noSlash (innerComponent?_of_firstComponent? front)
        · have noSlash := Text.separator_not_mem (split ▸ List.mem_cons_of_mem first inside)
          exact isPlainName_of_innerComponent? noSlash meaning
  next => simp at named

/-- A plain name behind the last slash is the last component of a path. -/
theorem fileName?_of_splitAt
    {path : Path}
    {pieces : List Bytes}
    (plain : IsPlainName name)
    (split : Text.splitAt slash path.bytes = pieces ++ [name]) :
    path.fileName? = some name := by
  have meaning := innerComponent?_of_isPlainName plain
  have last : path.components.getLast? = some (.name name) := by
    cases pieces with
    | nil =>
        rw [components_of_splitAt split, firstComponent?, if_neg plain.nonempty,
          if_neg plain.notHere, meaning]
        rfl
    | cons first rest =>
        rw [List.cons_append] at split
        rw [components_of_splitAt split, List.filterMap_append, List.filterMap_cons, meaning,
          List.filterMap_nil, ← List.append_assoc, List.getLast?_concat]
  rw [fileName?, last]

/-- The suffix of a path has no slash. -/
theorem noSlash_of_extension?
    {path : Path}
    {extension : Bytes}
    (suffix : path.extension? = some extension) :
    slash ∉ extension := by
  obtain ⟨name, named, suffix⟩ := Option.bind_eq_some_iff.mp suffix
  have plain := isPlainName_of_fileName? named
  unfold extensionOfName? at suffix
  split at suffix
  next front extension split =>
    obtain rfl := Option.some.inj suffix
    intro slash
    apply plain.noSlash
    rw [(Text.splitLast?_eq_some_iff.mp split).1]
    exact List.mem_append_right _ (List.mem_cons_of_mem _ slash)
  next => cases suffix

end Path
end Phrasebook
