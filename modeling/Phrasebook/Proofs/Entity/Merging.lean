import Mathlib.Data.Set.Card
import Phrasebook.Proofs.Entity.Map

/-!
# What a merge amounts to

Entries with different keys may come in in any order: none of them changes what another one finds.
So a merge does not depend on the order in which the incoming map gives out its entries.  It is the
union of both maps in which the incoming records win, and it counts the keys under which the maps
had different records.
-/

namespace Phrasebook
namespace Dictionary

variable {Key Value : Type} [LT Key] [KeyOrder Key]

/-- Keys that are listed without repetition are as many as the list is long. -/
theorem encard_eq_length
    {Key : Type}
    {keys : List Key}
    {among : Key → Prop}
    (distinct : keys.Nodup)
    (mem_iff : ∀ key, key ∈ keys ↔ among key) :
    {key | among key}.encard = keys.length := by
  classical
  have same : {key | among key} = (keys.toFinset : Set Key) := by
    ext key
    rw [Set.mem_ofPred_eq, Finset.mem_coe, List.mem_toFinset, mem_iff]
  rw [same, Set.encard_coe_eq_coe_finsetCard, List.toFinset_card_of_nodup distinct]

variable [DecidableEq Key]

theorem mem_keys_iff_contains
    {dictionary : Dictionary Key Value}
    {key : Key} :
    key ∈ dictionary.keys ↔ dictionary.contains key := by
  rw [contains, Option.isSome_iff_exists, keys, List.mem_map]
  simp only [get?_eq_some_iff, Prod.exists, exists_and_right, exists_eq_right]

theorem encard_contains (dictionary : Dictionary Key Value) :
    {key | dictionary.contains key}.encard = dictionary.size := by
  rw [encard_eq_length (nodup_keys dictionary) fun _ => mem_keys_iff_contains, keys,
    List.length_map, size]

end Dictionary

namespace Entity
namespace Map

variable {map incoming : Map}

/-! ## Any order -/

/-- Two entries with different keys may come in in either order. -/
theorem put_put_of_ne
    {first second : Text × Record}
    (apart : first.1 ≠ second.1)
    (state : Map × Nat) :
    put (put state first) second = put (put state second) first := by
  apply Prod.ext
  · apply Dictionary.ext_get?
    intro key
    simp only [fst_put, Dictionary.get?_insert]
    by_cases isFirst : key = first.1
    · rw [if_pos isFirst, if_neg (isFirst ▸ apart), if_pos isFirst]
    · rw [if_neg isFirst, if_neg isFirst]
  · change state.2 + _ + ((put state first).1.overwrites second.1 second.2).toNat =
      state.2 + _ + ((put state second).1.overwrites first.1 first.2).toNat
    rw [overwrites_put_of_ne apart, overwrites_put_of_ne (Ne.symm apart), Nat.add_right_comm]

/-- A merge may take the incoming entries in any order. -/
theorem foldl_put_of_perm
    {entries : List (Text × Record)}
    (arranged : entries.Perm incoming.entries)
    (map : Map) :
    entries.foldl put (map, 0) = map.merge incoming := by
  rw [merge_eq_foldl]
  apply arranged.foldl_eq'
  intro first firstMember second secondMember state
  by_cases same : first.1 = second.1
  · have found := Dictionary.get?_eq_some_iff.mpr (arranged.mem_iff.mp firstMember)
    have otherFound := Dictionary.get?_eq_some_iff.mpr (arranged.mem_iff.mp secondMember)
    rw [same, otherFound, Option.some.injEq] at found
    rw [Prod.ext same found.symm]
  · exact put_put_of_ne same state

/-! ## Conflicts -/

/-- Both maps have a record under a key, and the records differ. -/
def Conflict (map incoming : Map) (key : Text) : Prop :=
  ∃ old new, map.get? key = some old ∧ incoming.get? key = some new ∧
    (old.value ≠ new.value ∨ old.priority ≠ new.priority ∨ old.comment ≠ new.comment)

theorem overwrites_iff_conflict
    {key : Text}
    {record : Record}
    (present : incoming.get? key = some record) :
    map.overwrites key record ↔ Conflict map incoming key := by
  have differ (old : Record) : old ≠ record ↔
      old.value ≠ record.value ∨ old.priority ≠ record.priority ∨
        old.comment ≠ record.comment := by
    rw [← not_and_or, ← not_and_or, Ne, Record.mk.injEq]
  unfold overwrites
  cases found : map.get? key with
  | none => simp [Conflict, found]
  | some old => simp [Conflict, found, present, differ]

/-- A merge counts the conflicts. -/
theorem snd_merge_eq_encard (map incoming : Map) :
    (map.merge incoming).2 = {key | Conflict map incoming key}.encard := by
  let overwriting (entry : Text × Record) : Bool := map.overwrites entry.1 entry.2
  let keys := (incoming.entries.filter overwriting).map Prod.fst
  have distinct : keys.Nodup :=
    (Dictionary.nodup_keys incoming).sublist (List.filter_sublist.map Prod.fst)
  have members (key : Text) : key ∈ keys ↔ Conflict map incoming key := by
    simp only [keys, overwriting, List.mem_map, List.mem_filter, Prod.exists,
      ← Dictionary.get?_eq_some_iff, exists_and_right, exists_eq_right]
    constructor
    · rintro ⟨record, present, overwritten⟩
      exact (overwrites_iff_conflict present).mp overwritten
    · intro conflict
      obtain ⟨_, record, -, present, -⟩ := id conflict
      exact ⟨record, present, (overwrites_iff_conflict present).mpr conflict⟩
  rw [Dictionary.encard_eq_length distinct members, List.length_map, ← List.countP_eq_length_filter,
    snd_merge]

/-! ## Unions -/

theorem contains_merge (map incoming : Map) (key : Text) :
    (map.merge incoming).1.contains key ↔ map.contains key ∨ incoming.contains key := by
  rw [Dictionary.contains, get?_merge, Option.isSome_or, Bool.or_eq_true, Or.comm]
  rfl

theorem fst_merge_assoc (map incoming later : Map) :
    ((map.merge incoming).1.merge later).1 = (map.merge (incoming.merge later).1).1 := by
  apply Dictionary.ext_get?
  intro key
  simp only [get?_merge, Option.or_assoc]

/-- What has come in already changes nothing. -/
theorem merge_merge_self (map incoming : Map) :
    (map.merge incoming).1.merge incoming = ((map.merge incoming).1, 0) := by
  apply Prod.ext
  · apply Dictionary.ext_get?
    intro key
    rw [get?_merge, get?_merge, ← Option.or_assoc, Option.or_self]
  · rw [snd_merge_eq_zero_iff]
    intro key first second present arrives
    rw [get?_merge, arrives, Option.some_or] at present
    exact (Option.some.inj present).symm

/--
However the entries of the incoming map are arranged, a merge is the union in which its records win,
and the count is the number of keys with different records.  Merging is associative in the maps, and
merging the same map again changes nothing and counts nothing.
-/
theorem merge_is_union (map incoming : Map) :
    (∀ entries : List (Text × Record), entries.Perm incoming.entries →
      entries.foldl put (map, 0) = map.merge incoming) ∧
    (∀ key, (map.merge incoming).1.get? key = (incoming.get? key).or (map.get? key)) ∧
    (map.merge incoming).1.size = {key | map.contains key ∨ incoming.contains key}.encard ∧
    (map.merge incoming).2 = {key | Conflict map incoming key}.encard ∧
    (∀ later, ((map.merge incoming).1.merge later).1 = (map.merge (incoming.merge later).1).1) ∧
    (map.merge incoming).1.merge incoming = ((map.merge incoming).1, 0) := by
  refine ⟨fun _ arranged => foldl_put_of_perm arranged map, get?_merge map incoming, ?_,
    snd_merge_eq_encard map incoming, fst_merge_assoc map incoming, merge_merge_self map incoming⟩
  rw [← Dictionary.encard_contains]
  simp only [contains_merge]

end Map
end Entity
end Phrasebook
