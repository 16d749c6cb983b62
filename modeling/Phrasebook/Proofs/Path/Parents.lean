import Phrasebook.Proofs.Path

/-!
# Parents of paths

The parent of a path is made of parts that come first in it.  Its pieces are therefore pieces of the
path, and it is absolute when the path is, unless nothing is left of the path.  A path that ends
with a name has a parent.
-/

namespace Phrasebook

namespace Text

theorem splitAt_joinWith
    {Item : Type}
    [DecidableEq Item]
    {separator : Item}
    {pieces : List (List Item)}
    (nonempty : pieces ≠ [])
    (absent : ∀ piece ∈ pieces, separator ∉ piece) :
    splitAt separator (joinWith [separator] pieces) = pieces := by
  induction pieces with
  | nil => exact absurd rfl nonempty
  | cons piece rest ih =>
      rw [List.forall_mem_cons] at absent
      have alone := splitAt_of_not_mem absent.1
      cases rest with
      | nil => exact alone
      | cons next rest =>
          rw [joinWith, List.append_assoc, List.singleton_append, splitAt_append_cons, alone,
            ih (List.cons_ne_nil next rest) absent.2, List.singleton_append]

end Text

namespace Path

theorem map_fst_parts (path : Path) : path.parts.map Prod.fst = Text.splitAt slash path.bytes := by
  unfold parts
  cases Text.splitAt slash path.bytes with
  | nil => rfl
  | cons first rest => simp [Function.comp_def]

/-- A path is absolute when an empty piece stands in front of its first slash. -/
theorem isAbsolute_iff_exists
    {path : Path} :
    path.isAbsolute = true ↔
      ∃ piece pieces, Text.splitAt slash path.bytes = [] :: piece :: pieces := by
  obtain ⟨bytes⟩ := path
  cases bytes with
  | nil => simp [isAbsolute]
  | cons byte bytes =>
      by_cases same : byte = slash
      · obtain ⟨piece, pieces, split⟩ :=
          List.exists_cons_of_ne_nil (Text.splitAt_ne_nil slash bytes)
        simp [isAbsolute, same, Text.splitAt, split]
      · obtain ⟨piece, pieces, split⟩ := Text.exists_splitAt_cons same bytes
        simp [isAbsolute, same, split]

theorem innerComponent?_ne_root (piece : Bytes) : innerComponent? piece ≠ some .root := by
  unfold innerComponent?
  split
  · simp
  · split <;> simp

/-- The parts of an absolute path begin with the root. -/
theorem parts_of_isAbsolute
    {path : Path}
    (absolute : path.isAbsolute = true) :
    ∃ rest, path.parts = ([], some .root) :: rest := by
  obtain ⟨piece, pieces, split⟩ := isAbsolute_iff_exists.mp absolute
  rw [parts, split]
  exact ⟨_, rfl⟩

/-- Only an absolute path has the root among its parts. -/
theorem isAbsolute_of_root_mem_parts
    {path : Path}
    {piece : Bytes}
    (member : (piece, some .root) ∈ path.parts) :
    path.isAbsolute = true := by
  obtain ⟨first, rest, split⟩ := List.exists_cons_of_ne_nil (Text.splitAt_ne_nil slash path.bytes)
  rw [parts, split, List.mem_cons, List.mem_map] at member
  rcases member with head | ⟨inner, -, same⟩
  · rw [Prod.mk.injEq] at head
    have meaning := head.2.symm
    unfold firstComponent? at meaning
    split at meaning
    next empty =>
      split at meaning
      · cases meaning
      next more =>
        obtain ⟨second, others, whole⟩ := List.exists_cons_of_ne_nil more
        exact isAbsolute_iff_exists.mpr ⟨second, others, by rw [split, empty, whole]⟩
    next =>
      split at meaning
      · cases meaning
      · exact absurd meaning (innerComponent?_ne_root first)
  · rw [Prod.mk.injEq] at same
    exact absurd same.2 (innerComponent?_ne_root inner)

/-- What is trimmed off in front of pieces means nothing. -/
theorem exists_trimFront (parts : List PathPart) :
    ∃ trimmed, parts = trimmed ++ trimFront parts ∧ ∀ part ∈ trimmed, part.2 = none := by
  refine ⟨parts.takeWhile fun part => part.2.isNone, ?_, fun part member => ?_⟩
  · exact List.takeWhile_append_dropWhile.symm
  · have meaningless := List.all_eq_true.mp List.all_takeWhile part member
    simpa using meaningless

/-- The parent of a path is made of its first parts, the root among them if there is one. -/
theorem exists_front_of_parent?
    {path parent : Path}
    (above : path.parent? = some parent) :
    ∃ front behind, path.parts = front ++ behind ∧ parent = ofParts front ∧
      (path.isAbsolute = true → front ≠ []) := by
  unfold parent? at above
  split at above
  · cases above
  · cases above
  next part rest notRoot last =>
    rw [Option.some.injEq] at above
    obtain ⟨outer, outerWhole, outerEmpty⟩ := exists_trimFront path.parts.reverse
    obtain ⟨inner, innerWhole, innerEmpty⟩ := exists_trimFront rest
    rw [last, innerWhole] at outerWhole
    have whole := congrArg List.reverse outerWhole
    rw [List.reverse_reverse] at whole
    refine ⟨(trimFront rest).reverse, inner.reverse ++ part :: outer.reverse, ?_, above.symm, ?_⟩
    · rw [whole]
      simp
    · -- The root has a meaning, so it is not among what is left out behind the front.
      intro absolute nothing
      rw [List.reverse_eq_nil_iff] at nothing
      obtain ⟨others, rooted⟩ := parts_of_isAbsolute absolute
      have member : ([], some Component.root) ∈ path.parts.reverse := by
        rw [rooted]
        simp
      rw [outerWhole, nothing, List.append_nil, List.mem_append, List.mem_cons] at member
      rcases member with outside | same | inside
      · cases outerEmpty _ outside
      · exact notRoot [] same.symm
      · cases innerEmpty _ inside

section Front

variable
  {path : Path}
  {front behind : List PathPart}
  (whole : path.parts = front ++ behind)

include whole

/-- Parts that come first in a path make up a path with their pieces, but for the root alone. -/
theorem splitAt_ofParts
    (nonempty : front ≠ [])
    (notRoot : ∀ piece, front ≠ [(piece, some .root)]) :
    Text.splitAt slash (ofParts front).bytes = front.map Prod.fst := by
  have plain : ∀ piece ∈ front.map Prod.fst, slash ∉ piece := by
    intro piece member
    apply Text.separator_not_mem
    rw [← map_fst_parts path, whole, List.map_append]
    exact List.mem_append_left _ member
  unfold ofParts
  split
  next piece => exact absurd rfl (notRoot piece)
  next => exact Text.splitAt_joinWith (mt List.map_eq_nil_iff.mp nonempty) plain

/-- Parts that come first in a path make up an absolute path if the whole path is one. -/
theorem isAbsolute_ofParts (nonempty : front ≠ []) :
    (ofParts front).isAbsolute = path.isAbsolute := by
  have pieces := map_fst_parts path
  rw [whole, List.map_append] at pieces
  by_cases root : ∃ piece, front = [(piece, some .root)]
  · obtain ⟨piece, rfl⟩ := root
    have absolute : path.isAbsolute = true := by
      apply isAbsolute_of_root_mem_parts
      rw [whole]
      exact List.mem_cons_self
    rw [absolute]
    rfl
  · have split := splitAt_ofParts whole nonempty fun piece same => root ⟨piece, same⟩
    rw [Bool.eq_iff_iff, isAbsolute_iff_exists, isAbsolute_iff_exists, split, ← pieces]
    match front, nonempty with
    | first :: second :: rest, _ => simp
    | [first], _ =>
        -- One part alone makes up an absolute path only if it is the root.
        refine iff_of_false (by simp) fun ⟨piece, rest, same⟩ => root ?_
        have absolute : path.isAbsolute = true :=
          isAbsolute_iff_exists.mpr ⟨piece, rest, by rw [← same, pieces]⟩
        obtain ⟨others, rooted⟩ := parts_of_isAbsolute absolute
        rw [whole, List.cons_append, List.cons.injEq] at rooted
        exact ⟨[], by rw [rooted.1]⟩

end Front

/-! ## Paths that end with a name -/

theorem filterMap_trimFront (parts : List PathPart) :
    (trimFront parts).filterMap Prod.snd = parts.filterMap Prod.snd := by
  induction parts with
  | nil => rfl
  | cons part parts ih =>
      obtain ⟨piece, meaning⟩ := part
      cases meaning with
      | none => simpa [trimFront] using ih
      | some component => simp [trimFront]

/-- A path that ends with a name has a parent. -/
theorem exists_parent?
    {path : Path}
    {name : Bytes}
    (named : path.fileName? = some name) :
    ∃ parent, path.parent? = some parent := by
  have last : path.components.getLast? = some (.name name) := by
    unfold fileName? at named
    split at named
    next text last => rw [last, Option.some.inj named]
    next => cases named
  have first : ((trimFront path.parts.reverse).filterMap Prod.snd).head? = some (.name name) := by
    rw [filterMap_trimFront, List.filterMap_reverse, List.head?_reverse]
    exact last
  unfold parent?
  split
  next nothing =>
    rw [nothing] at first
    cases first
  next root =>
    rw [root] at first
    cases first
  next part rest _ _ => exact ⟨_, rfl⟩

end Path

end Phrasebook
