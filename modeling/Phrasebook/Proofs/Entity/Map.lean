import Phrasebook.Entity.Map
import Phrasebook.Proofs.Dictionary

/-!
# Merged entity maps

A merged map has the records of both maps; the record of the incoming one stays where both have one.
An overwriting is counted for every key under which both have records and these differ.
-/

namespace Phrasebook
namespace Entity
namespace Map

theorem fst_foldl_put
    (entries : List (Text × Record))
    (state : Map × Nat) :
    (entries.foldl put state).1 =
      entries.foldl (fun map entry => map.insert entry.1 entry.2) state.1 := by
  induction entries generalizing state with
  | nil => rfl
  | cons entry entries ih => rw [List.foldl_cons, ih, fst_put, List.foldl_cons]

/-- The incoming record of a key wins. -/
theorem get?_merge
    (map incoming : Map)
    (key : Text) :
    (map.merge incoming).1.get? key = (incoming.get? key).or (map.get? key) := by
  have same : Dictionary.ofList incoming.entries = incoming :=
    Dictionary.ofList_eq_of_mem_iff fun _ => Iff.rfl
  rw [merge_eq_foldl, fst_foldl_put, Dictionary.get?_foldl_insert, ← Dictionary.get?_ofList, same]

/-! ## Overwritings -/

theorem overwrites_eq_false_iff
    {map : Map}
    {key : Text}
    {record : Record} :
    map.overwrites key record = false ↔ ∀ old, map.get? key = some old → old = record := by
  unfold overwrites
  cases map.get? key with
  | none => simp
  | some old => simp

/-- Entries with other keys come in without an effect on what a record would overwrite. -/
theorem overwrites_put_of_ne
    {state : Map × Nat}
    {entry other : Text × Record}
    (apart : entry.1 ≠ other.1) :
    (put state entry).1.overwrites other.1 other.2 = state.1.overwrites other.1 other.2 := by
  unfold overwrites
  rw [fst_put, Dictionary.get?_insert, if_neg (Ne.symm apart)]

/-- Entries with different keys overwrite what they would overwrite one by one. -/
theorem snd_foldl_put
    {entries : List (Text × Record)}
    (distinct : entries.Pairwise fun first second => first.1 ≠ second.1)
    (state : Map × Nat) :
    (entries.foldl put state).2 =
      state.2 + entries.countP fun entry => state.1.overwrites entry.1 entry.2 := by
  induction entries generalizing state with
  | nil => rfl
  | cons entry entries ih =>
      rw [List.pairwise_cons] at distinct
      have others : entries.countP (fun other => (put state entry).1.overwrites other.1 other.2) =
          entries.countP fun other => state.1.overwrites other.1 other.2 := by
        apply List.countP_congr
        intro other member
        rw [overwrites_put_of_ne (distinct.1 other member)]
      rw [List.foldl_cons, ih distinct.2, others, List.countP_cons, put]
      cases state.1.overwrites entry.1 entry.2 with
      | false => rfl
      | true =>
          rw [Bool.toNat_true, if_pos rfl]
          omega

/-- A merge counts the incoming records that would overwrite another one. -/
theorem snd_merge (map incoming : Map) :
    (map.merge incoming).2 =
      incoming.entries.countP fun entry => map.overwrites entry.1 entry.2 := by
  have distinct : incoming.entries.Pairwise fun first second => first.1 ≠ second.1 := by
    apply incoming.increasing.imp
    intro first second less same
    rw [same] at less
    exact KeyOrder.asymm less less
  rw [merge_eq_foldl, snd_foldl_put distinct, Nat.zero_add]

/-- A merge counts nothing when the maps have the same record under every key that both have. -/
theorem snd_merge_eq_zero_iff
    {map incoming : Map} :
    (map.merge incoming).2 = 0 ↔
      ∀ key first second, map.get? key = some first → incoming.get? key = some second →
        first = second := by
  rw [snd_merge, List.countP_eq_zero]
  constructor
  · intro none key first second present arrives
    have kept := none (key, second) (Dictionary.get?_eq_some_iff.mp arrives)
    rw [Bool.not_eq_true, overwrites_eq_false_iff] at kept
    exact kept first present
  · intro agree entry member
    rw [Bool.not_eq_true, overwrites_eq_false_iff]
    intro old present
    exact agree entry.1 old entry.2 present (Dictionary.get?_eq_some_iff.mpr member)

end Map
end Entity
end Phrasebook
