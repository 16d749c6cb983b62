import Phrasebook.Dictionary
import Phrasebook.Entity.Record

/-!
# Entity maps

An entity map holds one record for each full key.  A record that comes in later replaces an
earlier one under the same key; when the two differ the replacement counts as an overwriting.
Listings are in the order of the records, with ties broken by the keys.
-/

namespace Phrasebook
namespace Entity

/-- Records by full key. -/
abbrev Map : Type :=
  Dictionary Text Record

namespace Map

/-- A record under this key would replace a different one. -/
def overwrites (map : Map) (key : Text) (record : Record) : Bool :=
  match map.get? key with
  | none => false
  | some old => old ≠ record

/-- A map and a count of overwritings, after one more entry has come in. -/
def put (state : Map × Nat) (entry : Text × Record) : Map × Nat :=
  (state.1.insert entry.1 entry.2, state.2 + (state.1.overwrites entry.1 entry.2).toNat)

/--
The union in which the incoming records win, and the number of overwritings.  Nothing has to be done
entry by entry if there are no records yet.
-/
def merge (map incoming : Map) : Map × Nat :=
  if map.isEmpty then (incoming, 0) else incoming.entries.foldl put (map, 0)

/-- Entries are listed by record, then by key. -/
def compareEntries (first second : Text × Record) : Ordering :=
  (first.2.compare second.2).then (compareOfLessAndEq first.1 second.1)

/-- The entries by record, with ties broken by key. -/
def sorted (map : Map) : List (Text × Record) :=
  map.entries.mergeSort fun first second => (compareEntries first second).isLE

/-- The map afterwards does not depend on the count. -/
theorem fst_put (state : Map × Nat) (entry : Text × Record) :
    (put state entry).1 = state.1.insert entry.1 entry.2 :=
  rfl

/-- Entries that come in with ever greater keys are lined up, and overwrite nothing. -/
theorem foldl_put_of_increasing
    (front rest : List (Text × Record))
    (frontIncreasing : front.Pairwise fun first second => first.1 < second.1)
    (increasing : (front ++ rest).Pairwise fun first second => first.1 < second.1) :
    rest.foldl put ((⟨front, frontIncreasing⟩ : Map), 0) =
      ((⟨front ++ rest, increasing⟩ : Map), 0) := by
  induction rest generalizing front with
  | nil => simp
  | cons entry rest ih =>
      have apart := (List.pairwise_append.mp increasing).2.2
      have greatest : ∀ other ∈ front, other.1 < entry.1 :=
        fun other member => apart other member entry List.mem_cons_self
      have absent : Dictionary.lookup entry.1 front = none :=
        Dictionary.lookup_eq_none fun other member same => by
          have less := greatest other member
          rw [same] at less
          exact KeyOrder.asymm less less
      have regrouped : front ++ entry :: rest = (front ++ [entry]) ++ rest := by simp
      have lined : ((front ++ [entry]) ++ rest).Pairwise fun first second =>
          first.1 < second.1 := regrouped ▸ increasing
      have taken : put ((⟨front, frontIncreasing⟩ : Map), 0) entry =
          ((⟨front ++ [entry], (List.pairwise_append.mp lined).1⟩ : Map), 0) := by
        have placed := Dictionary.insertEntry_of_forall_lt entry.2 greatest
        simp only [put, overwrites, Dictionary.get?, absent, Dictionary.insert]
        exact Prod.ext (Dictionary.ext placed) rfl
      rw [List.foldl_cons, taken, ih _ _ lined]
      simp

/-- Merging is one entry after the other coming in. -/
theorem merge_eq_foldl (map incoming : Map) :
    map.merge incoming = incoming.entries.foldl put (map, 0) := by
  unfold merge
  split
  next isEmpty =>
    obtain ⟨entries, increasing⟩ := map
    have blank : entries = [] := List.isEmpty_iff.mp isEmpty
    subst blank
    exact (foldl_put_of_increasing [] incoming.entries increasing incoming.increasing).symm
  next => rfl

end Map
end Entity
end Phrasebook
