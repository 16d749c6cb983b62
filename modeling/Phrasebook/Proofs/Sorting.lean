import Mathlib.Data.List.Nodup

/-!
# Sorting in a line

Where items are ordered in a line, a test for one that comes before another or is the same sorts a
list into increasing order, and there is only one such order.  Names in a folder and entries of a
table are sorted like this.
-/

namespace Phrasebook
namespace Sorting

variable
  {Item : Type}
  {Before : Item → Item → Prop}
  {test : Item → Item → Bool}
  {items sorted : List Item}

/-- Sorting puts a list without repetitions into increasing order. -/
theorem increasing_mergeSort
    (trans : ∀ {first second third},
      Before first second → Before second third → Before first third)
    (trichotomy : ∀ first second, Before first second ∨ first = second ∨ Before second first)
    (decides : ∀ {first second}, test first second = true ↔ Before first second ∨ first = second)
    (distinct : items.Nodup) :
    (items.mergeSort test).Pairwise Before := by
  have ordered : (items.mergeSort test).Pairwise fun first second => test first second := by
    refine List.pairwise_mergeSort ?_ ?_ items
    · intro first second third before behind
      rw [decides] at before behind ⊢
      rcases before with before | rfl
      · rcases behind with behind | rfl
        · exact .inl (trans before behind)
        · exact .inl before
      · exact behind
    · intro first second
      rw [Bool.or_eq_true, decides, decides]
      rcases trichotomy first second with before | same | behind
      · exact .inl (.inl before)
      · exact .inl (.inr same)
      · exact .inr (.inl behind)
  have apart : (items.mergeSort test).Nodup := List.nodup_mergeSort.mpr distinct
  refine (ordered.and apart).imp ?_
  intro first second both
  exact (decides.mp both.1).resolve_right both.2

/-- Items in increasing order are what sorting makes of them in any other order. -/
theorem mergeSort_eq_of_increasing
    (increasing : sorted.Pairwise Before)
    (permuted : items.Perm sorted)
    (asymm : ∀ {first second}, Before first second → ¬Before second first)
    (trans : ∀ {first second third},
      Before first second → Before second third → Before first third)
    (trichotomy : ∀ first second, Before first second ∨ first = second ∨ Before second first)
    (decides : ∀ {first second}, test first second = true ↔ Before first second ∨ first = second) :
    items.mergeSort test = sorted := by
  have distinct : sorted.Nodup := by
    refine increasing.imp ?_
    rintro item _ before rfl
    exact asymm before before
  have alsoIncreasing : (items.mergeSort test).Pairwise Before :=
    increasing_mergeSort trans trichotomy decides (permuted.nodup_iff.mpr distinct)
  have alsoPermuted := (List.mergeSort_perm items test).trans permuted
  refine alsoPermuted.eq_of_pairwise ?_ alsoIncreasing increasing
  intro first second _ _ before behind
  exact absurd behind (asymm before)

end Sorting
end Phrasebook
