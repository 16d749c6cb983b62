import Phrasebook.Dictionary

/-!
# Dictionaries from lists

Building a dictionary from a list keeps, for every key, the last entry of the list.  A list with
the members of a dictionary therefore builds that dictionary, in whatever order they come.
-/

namespace Phrasebook
namespace Dictionary

variable {Key Value : Type}

theorem lookup_append
    [DecidableEq Key]
    (key : Key)
    (front behind : List (Key × Value)) :
    lookup key (front ++ behind) = (lookup key front).or (lookup key behind) := by
  induction front with
  | nil => rfl
  | cons entry front ih => by_cases same : key = entry.1 <;> simp [lookup, same, ih]

theorem exists_lookup_of_mem
    [DecidableEq Key]
    {key : Key}
    {value : Value}
    {entries : List (Key × Value)}
    (member : (key, value) ∈ entries) :
    ∃ found, lookup key entries = some found := by
  induction entries with
  | nil => simp at member
  | cons entry rest ih =>
      by_cases same : key = entry.1
      · exact ⟨entry.2, by simp [lookup, same]⟩
      · rcases List.mem_cons.mp member with equal | later
        · rw [← equal] at same
          exact absurd rfl same
        · obtain ⟨found, inside⟩ := ih later
          exact ⟨found, by simp [lookup, same, inside]⟩

/-- Where no key has two values, the first entry of a key is the only one. -/
theorem lookup_eq_some_iff
    [DecidableEq Key]
    {key : Key}
    {value : Value}
    {entries : List (Key × Value)}
    (single : ∀ key first second,
      (key, first) ∈ entries → (key, second) ∈ entries → first = second) :
    lookup key entries = some value ↔ (key, value) ∈ entries := by
  constructor
  · exact mem_of_lookup
  · intro member
    obtain ⟨found, present⟩ := exists_lookup_of_mem member
    rw [present, single key found value (mem_of_lookup present) member]

/-- The entry that is looked up is the first one with its key. -/
theorem lookup_eq_some_iff_append
    [DecidableEq Key]
    {key : Key}
    {value : Value}
    {entries : List (Key × Value)} :
    lookup key entries = some value ↔
      ∃ front behind, entries = front ++ (key, value) :: behind ∧
        ∀ entry ∈ front, entry.1 ≠ key := by
  constructor
  · intro found
    induction entries with
    | nil => simp [lookup] at found
    | cons entry rest ih =>
        obtain ⟨other, old⟩ := entry
        by_cases same : key = other
        · rw [lookup, if_pos same, Option.some.injEq] at found
          exact ⟨[], rest, by rw [same, found, List.nil_append], by simp⟩
        · rw [lookup, if_neg same] at found
          obtain ⟨front, behind, rfl, fresh⟩ := ih found
          refine ⟨(other, old) :: front, behind, rfl, ?_⟩
          exact List.forall_mem_cons.mpr ⟨Ne.symm same, fresh⟩
  · rintro ⟨front, behind, rfl, fresh⟩
    rw [lookup_append, lookup_eq_none fresh, Option.none_or, lookup, if_pos rfl]

variable [LT Key] [DecidableEq Key] [DecidableLT Key] [KeyOrder Key]

theorem get?_foldl_insert
    (entries : List (Key × Value))
    (dictionary : Dictionary Key Value)
    (key : Key) :
    (entries.foldl (fun dictionary entry => dictionary.insert entry.1 entry.2) dictionary).get?
        key =
      (lookup key entries.reverse).or (dictionary.get? key) := by
  induction entries generalizing dictionary with
  | nil => rfl
  | cons entry rest ih =>
      rw [List.foldl_cons, ih, get?_insert, List.reverse_cons, lookup_append]
      cases lookup key rest.reverse with
      | some value => rfl
      | none => by_cases same : key = entry.1 <;> simp [lookup, same]

/-- The last entry of a key is the one that stays. -/
theorem get?_ofList (entries : List (Key × Value)) (key : Key) :
    (ofList entries).get? key = lookup key entries.reverse := by
  rw [ofList, get?_foldl_insert, get?_empty, Option.or_none]

theorem mem_of_mem_ofList
    {entries : List (Key × Value)}
    {entry : Key × Value}
    (member : entry ∈ (ofList entries).entries) :
    entry ∈ entries := by
  have found := get?_eq_some_iff.mpr member
  rw [get?_ofList] at found
  exact List.mem_reverse.mp (mem_of_lookup found)

omit [DecidableLT Key] in
/-- A list with the members of a dictionary answers like it. -/
theorem lookup_eq_get?
    {entries : List (Key × Value)}
    {dictionary : Dictionary Key Value}
    (same : ∀ entry, entry ∈ entries ↔ entry ∈ dictionary.entries)
    (key : Key) :
    lookup key entries = dictionary.get? key := by
  have single : ∀ key first second,
      (key, first) ∈ entries → (key, second) ∈ entries → first = second := by
    intro key first second member other
    rw [same, ← get?_eq_some_iff] at member other
    exact Option.some.inj (member.symm.trans other)
  ext value
  rw [lookup_eq_some_iff single, same, get?_eq_some_iff]

/-- A list with the members of a dictionary builds that dictionary. -/
theorem ofList_eq_of_mem_iff
    {entries : List (Key × Value)}
    {dictionary : Dictionary Key Value}
    (same : ∀ entry, entry ∈ entries ↔ entry ∈ dictionary.entries) :
    ofList entries = dictionary := by
  apply ext_get?
  intro key
  rw [get?_ofList, lookup_eq_get?]
  intro entry
  rw [List.mem_reverse, same]

theorem mem_insert
    {dictionary : Dictionary Key Value}
    {key : Key}
    {value : Value}
    {entry : Key × Value}
    (member : entry ∈ (dictionary.insert key value).entries) :
    entry = (key, value) ∨ entry ∈ dictionary.entries :=
  mem_of_mem_insertEntry member

omit [DecidableEq Key] [DecidableLT Key] in
/-- No key occurs twice. -/
theorem nodup_keys (dictionary : Dictionary Key Value) : dictionary.keys.Nodup := by
  rw [keys, List.nodup_iff_pairwise_ne, List.pairwise_map]
  refine dictionary.increasing.imp fun less same => ?_
  rw [same] at less
  exact KeyOrder.asymm less less

end Dictionary
end Phrasebook
