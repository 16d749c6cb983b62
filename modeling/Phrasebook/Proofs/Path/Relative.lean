import Mathlib.Data.List.Induction
import Phrasebook.Proofs.Path

/-!
# Relative paths

A path that has come about by joining names to a base is, relative to the base, made up of these
names.  The base may be written in any way: what means nothing at its end is passed over.
-/

namespace Phrasebook
namespace Path

/-- The part of a path that a plain name is. -/
def namePart (name : Bytes) : PathPart :=
  (name, some (.name name))

variable
  {base : Path}
  {names : List Bytes}

theorem splitAt_foldl_join
    (base : Path)
    (nonempty : names ≠ [])
    (plain : ∀ name ∈ names, IsPlainName name) :
    ∃ front, Text.splitAt slash (names.foldl join base).bytes = front ++ names := by
  -- The last name is joined to a path that ends with a name already, or to the base.
  induction names using List.reverseRecOn with
  | nil => exact absurd rfl nonempty
  | append_singleton names last ih =>
      obtain ⟨plainFront, plainLast⟩ := List.forall_mem_append.mp plain
      obtain ⟨front, joined, original⟩ :=
        splitAt_join (names.foldl join base) (plainLast last (List.mem_singleton_self last))
      rw [List.foldl_append, List.foldl_cons, List.foldl_nil, joined]
      by_cases alone : names = []
      · exact ⟨front, by rw [alone, List.nil_append]⟩
      · obtain ⟨outer, whole⟩ := ih alone plainFront
        rcases original with ⟨same, -⟩ | longer
        · exact ⟨outer, by rw [← same, whole, List.append_assoc]⟩
        · -- The piece in front of the last name is a name, so it is not empty.
          rw [whole] at longer
          have ends := congrArg List.getLast? longer
          rw [List.getLast?_concat, List.getLast?_append, List.getLast?_eq_some_getLast alone,
            Option.some_or, Option.some.injEq] at ends
          exact absurd ends (plainFront _ (List.getLast_mem alone)).nonempty

theorem components_foldl_join
    (base : Path)
    (plain : ∀ name ∈ names, IsPlainName name) :
    (names.foldl join base).components = base.components ++ names.map .name := by
  induction names generalizing base with
  | nil => rw [List.foldl_nil, List.map_nil, List.append_nil]
  | cons name names ih =>
      obtain ⟨plainHere, plain⟩ := List.forall_mem_cons.mp plain
      rw [List.foldl_cons, ih (base.join name) plain, components_join base plainHere,
        List.append_assoc, List.map_cons, List.singleton_append]

/-- The parts of a joined path are parts with the components of the base, and its names. -/
theorem parts_foldl_join
    (base : Path)
    (nonempty : names ≠ [])
    (plain : ∀ name ∈ names, IsPlainName name) :
    ∃ front, (names.foldl join base).parts = front ++ names.map namePart ∧
      front.filterMap Prod.snd = base.components := by
  obtain ⟨pieces, split⟩ := splitAt_foldl_join base nonempty plain
  have meanings : ∀ name ∈ names, (name, innerComponent? name) = namePart name :=
    fun name member => by rw [innerComponent?_of_isPlainName (plain name member), namePart]
  have parts : ∃ front, (names.foldl join base).parts = front ++ names.map namePart := by
    unfold Path.parts
    rw [split]
    cases pieces with
    | nil =>
        obtain ⟨first, rest, rfl⟩ := List.exists_cons_of_ne_nil nonempty
        obtain ⟨plainFirst, -⟩ := List.forall_mem_cons.mp plain
        refine ⟨[], ?_⟩
        have meaning : firstComponent? first rest = some (.name first) := by
          rw [firstComponent?, if_neg plainFirst.nonempty, if_neg plainFirst.notHere,
            innerComponent?_of_isPlainName plainFirst]
        simp only [List.nil_append, List.map_cons, meaning, namePart]
        rw [List.map_congr_left fun name member => meanings name (List.mem_cons_of_mem _ member)]
    | cons first rest =>
        refine ⟨(first, firstComponent? first (rest ++ names)) ::
          rest.map fun piece => (piece, innerComponent? piece), ?_⟩
        simp only [List.cons_append, List.map_append]
        rw [List.map_congr_left meanings]
  obtain ⟨front, whole⟩ := parts
  refine ⟨front, whole, ?_⟩
  have same := components_foldl_join base plain
  have inner : (names.map namePart).filterMap Prod.snd = names.map .name := by
    rw [List.filterMap_map]
    exact congrFun List.filterMap_eq_map names
  rw [components, whole, List.filterMap_append, inner] at same
  exact List.append_cancel_right same

/-- The components of parts are dropped with these parts, but for what means nothing behind them. -/
theorem exists_dropComponents?
    (front behind : List PathPart) :
    ∃ trimmed, (∀ part ∈ trimmed, part.2 = none) ∧
      dropComponents? (front.filterMap Prod.snd) (front ++ behind) = some (trimmed ++ behind) := by
  induction front with
  | nil => exact ⟨[], by simp, by simp [dropComponents?]⟩
  | cons part front ih =>
      obtain ⟨trimmed, meaningless, dropped⟩ := ih
      obtain ⟨piece, meaning⟩ := part
      cases meaning with
      | some component =>
          refine ⟨trimmed, meaningless, ?_⟩
          rw [List.filterMap_cons, List.cons_append]
          simp only [dropComponents?, if_true]
          exact dropped
      | none =>
          rw [List.filterMap_cons, List.cons_append]
          cases components : front.filterMap Prod.snd with
          | nil =>
              refine ⟨(piece, none) :: front, ?_, by simp [dropComponents?]⟩
              refine List.forall_mem_cons.mpr ⟨rfl, fun other member => ?_⟩
              exact List.filterMap_eq_nil_iff.mp components other member
          | cons component later =>
              refine ⟨trimmed, meaningless, ?_⟩
              rw [components] at dropped
              simpa only [dropComponents?] using dropped

theorem trimFront_append
    {trimmed parts : List PathPart}
    (meaningless : ∀ part ∈ trimmed, part.2 = none) :
    trimFront (trimmed ++ parts) = trimFront parts := by
  unfold trimFront
  rw [List.dropWhile_append_of_pos fun part member => by simp [meaningless part member]]

theorem trimFront_map_namePart (names : List Bytes) :
    trimFront (names.map namePart) = names.map namePart := by
  cases names <;> rfl

/-- Relative to its base, a path of names is made up of the names. -/
theorem relativeTo?_foldl_join
    (base : Path)
    (nonempty : names ≠ [])
    (plain : ∀ name ∈ names, IsPlainName name) :
    relativeTo? base (names.foldl join base) = some ⟨Text.joinWith [slash] names⟩ := by
  obtain ⟨front, whole, same⟩ := parts_foldl_join base nonempty plain
  obtain ⟨trimmed, meaningless, dropped⟩ := exists_dropComponents? front (names.map namePart)
  have ofNames : ofParts (names.map namePart) = ⟨Text.joinWith [slash] names⟩ := by
    have pieces : (names.map namePart).map Prod.fst = names := by simp [namePart, Function.comp_def]
    unfold ofParts
    split
    next piece root => cases names <;> simp [namePart] at root
    next => rw [pieces]
  rw [relativeTo?, ← same, whole, dropped, Option.map_some, trimFront_append meaningless,
    trimFront_map_namePart, trimBack, ← List.map_reverse, trimFront_map_namePart,
    ← List.map_reverse, List.reverse_reverse, ofNames]

end Path
end Phrasebook
