import Mathlib.Data.List.Forall2

/-!
# Steps that may fail

A sequence of steps succeeds exactly when each of its steps does, and then the results are the
results of the steps.  Readers and disk operations are such sequences; these lemmas take them
apart.
-/

namespace Phrasebook
namespace Outcome

variable {Cause Item Result Other : Type}

theorem bind_eq_ok_iff
    {first : Except Cause Item}
    {next : Item → Except Cause Result}
    {result : Result} :
    first >>= next = .ok result ↔ ∃ item, first = .ok item ∧ next item = .ok result := by
  cases first <;> simp [bind, Except.bind]

theorem map_eq_ok_iff
    {first : Except Cause Item}
    {f : Item → Result}
    {result : Result} :
    first.map f = .ok result ↔ ∃ item, first = .ok item ∧ f item = result := by
  cases first <;> simp [Except.map]

theorem mapError_eq_ok_iff
    {step : Except Cause Result}
    {f : Cause → Other}
    {result : Result} :
    step.mapError f = .ok result ↔ step = .ok result := by
  cases step <;> simp [Except.mapError]

theorem mapError_eq_error_iff
    {step : Except Cause Result}
    {f : Cause → Other}
    {other : Other} :
    step.mapError f = .error other ↔ ∃ cause, step = .error cause ∧ f cause = other := by
  cases step <;> simp [Except.mapError]

theorem map_filter_true (items : Except Cause (List Item)) :
    items.map (List.filter fun _ => true) = items := by
  cases items with
  | error cause => rfl
  | ok items => exact congrArg Except.ok (List.filter_eq_self.mpr fun _ _ => rfl)

theorem mapM_eq_ok_iff
    {f : Item → Except Cause Result}
    {items : List Item}
    {results : List Result} :
    items.mapM f = .ok results ↔
      List.Forall₂ (fun item result => f item = .ok result) items results := by
  induction items generalizing results with
  | nil => simp [pure, Except.pure, eq_comm]
  | cons item items ih =>
      simp only [List.mapM_cons, bind_eq_ok_iff, ih, pure, Except.pure, Except.ok.injEq,
        List.forall₂_cons_left_iff]
      constructor
      · rintro ⟨first, readFirst, rest, readRest, rfl⟩
        exact ⟨first, rest, readFirst, readRest, rfl⟩
      · rintro ⟨first, rest, readFirst, readRest, rfl⟩
        exact ⟨first, readFirst, rest, readRest, rfl⟩

/-- The results of a list of steps are the results of its items. -/
theorem mem_iff_of_mapM
    {f : Item → Except Cause Result}
    {items : List Item}
    {results : List Result}
    (read : items.mapM f = .ok results)
    (result : Result) :
    result ∈ results ↔ ∃ item ∈ items, f item = .ok result := by
  have pairs := mapM_eq_ok_iff.mp read
  clear read
  induction pairs with
  | nil => simp
  | @cons item first items results readFirst _ ih =>
      simp only [List.mem_cons, exists_eq_or_imp, readFirst, Except.ok.injEq, ih,
        @eq_comm _ result first]

/-- A list of steps succeeds if each of its items does. -/
theorem exists_mapM
    {f : Item → Except Cause Result}
    {items : List Item}
    (readable : ∀ item ∈ items, ∃ result, f item = .ok result) :
    ∃ results, items.mapM f = .ok results := by
  induction items with
  | nil => exact ⟨[], rfl⟩
  | cons item items ih =>
      obtain ⟨first, readFirst⟩ := readable item List.mem_cons_self
      obtain ⟨rest, readRest⟩ :=
        ih fun other member => readable other (List.mem_cons_of_mem item member)
      refine ⟨first :: rest, ?_⟩
      rw [List.mapM_cons, readFirst, readRest]
      rfl

end Outcome
end Phrasebook
