/-!
# Dictionaries

A dictionary is a finite map from keys to values.  It is held as a list in strictly increasing
order of the keys, so a dictionary is determined by what it holds: two dictionaries that give the
same answer for every key are equal, in whatever order they were built.
-/

namespace Phrasebook

/-- Keys are ordered in a line: different ones are comparable, and the order has no cycles. -/
class KeyOrder (Key : Type) [LT Key] : Prop where
  /-- Of two keys at most one is less than the other. -/
  asymm : ∀ {first second : Key}, first < second → ¬second < first
  /-- Less than something less is less. -/
  trans : ∀ {first second third : Key}, first < second → second < third → first < third
  /-- Of two different keys one is less than the other. -/
  trichotomy : ∀ first second : Key, first < second ∨ first = second ∨ second < first

/-- Texts are ordered in a line. -/
instance : KeyOrder (List Char) where
  asymm := fun less => Std.Asymm.asymm _ _ less
  trans := fun less more => Std.lt_trans less more
  trichotomy := fun first second => Std.lt_trichotomy first second

/-- A finite map, held in strictly increasing order of its keys. -/
@[ext]
structure Dictionary (Key Value : Type) [LT Key] where
  /-- Keys and values in the order of the keys. -/
  entries : List (Key × Value)
  /-- Every key occurs once, in order. -/
  increasing : entries.Pairwise fun first second => first.1 < second.1

namespace Dictionary

variable {Key Value : Type} [LT Key]

/-- Two dictionaries are equal as soon as their entries are. -/
instance [DecidableEq Key] [DecidableEq Value] : DecidableEq (Dictionary Key Value) :=
  fun first second =>
    if same : first.entries = second.entries then
      isTrue (Dictionary.ext same)
    else
      isFalse fun equal => same (congrArg entries equal)

/-- The dictionary without entries. -/
def empty : Dictionary Key Value :=
  ⟨[], List.Pairwise.nil⟩

instance : Inhabited (Dictionary Key Value) :=
  ⟨empty⟩

/-- The keys in increasing order. -/
def keys (dictionary : Dictionary Key Value) : List Key :=
  dictionary.entries.map Prod.fst

/-- The number of keys. -/
def size (dictionary : Dictionary Key Value) : Nat :=
  dictionary.entries.length

/-- A dictionary is empty when it has no entry. -/
def isEmpty (dictionary : Dictionary Key Value) : Bool :=
  dictionary.entries.isEmpty

/-- The value of a key in a list of entries, the first one if there are several. -/
def lookup {Key Value : Type} [DecidableEq Key] (key : Key) : List (Key × Value) → Option Value
  | [] => none
  | (other, value) :: rest => if key = other then some value else lookup key rest

/-- A value that was found belongs to an entry. -/
theorem mem_of_lookup
    {Key Value : Type}
    [DecidableEq Key]
    {key : Key}
    {value : Value}
    {entries : List (Key × Value)}
    (found : lookup key entries = some value) :
    (key, value) ∈ entries := by
  induction entries with
  | nil => simp [lookup] at found
  | cons entry rest ih =>
      simp only [lookup] at found
      split at found
      next same =>
        simp only [Option.some.injEq] at found
        simp [same, ← found]
      next => exact List.mem_cons_of_mem _ (ih found)

/-- A key without an entry has no value. -/
theorem lookup_eq_none
    {Key Value : Type}
    [DecidableEq Key]
    {key : Key}
    {entries : List (Key × Value)}
    (absent : ∀ entry ∈ entries, entry.1 ≠ key) :
    lookup key entries = none := by
  induction entries with
  | nil => rfl
  | cons entry rest ih =>
      have other : key ≠ entry.1 := fun same => absent entry (by simp) same.symm
      simp [lookup, other, ih fun entry member => absent entry (by simp [member])]

variable [DecidableEq Key]

/-- The value of a key, if the dictionary has the key. -/
def get? (dictionary : Dictionary Key Value) (key : Key) : Option Value :=
  lookup key dictionary.entries

/-- The dictionary has a value for the key. -/
def contains (dictionary : Dictionary Key Value) (key : Key) : Bool :=
  (dictionary.get? key).isSome

/-- The empty dictionary has no value for any key. -/
@[simp]
theorem get?_empty (key : Key) : (empty : Dictionary Key Value).get? key = none :=
  rfl

/-- Entries in strictly increasing order have each key once. -/
theorem lookup_of_mem
    [KeyOrder Key]
    {key : Key}
    {value : Value}
    {entries : List (Key × Value)}
    (increasing : entries.Pairwise fun first second => first.1 < second.1)
    (member : (key, value) ∈ entries) :
    lookup key entries = some value := by
  induction entries with
  | nil => simp at member
  | cons entry rest ih =>
      rw [List.pairwise_cons] at increasing
      rcases List.mem_cons.mp member with same | later
      · simp [lookup, ← same]
      · have smaller := increasing.1 _ later
        have other : key ≠ entry.1 := by
          intro same
          rw [same] at smaller
          exact KeyOrder.asymm smaller smaller
        simp [lookup, other, ih increasing.2 later]

/-- A dictionary gives a value for a key exactly when it has that entry. -/
theorem get?_eq_some_iff
    [KeyOrder Key]
    {dictionary : Dictionary Key Value}
    {key : Key}
    {value : Value} :
    dictionary.get? key = some value ↔ (key, value) ∈ dictionary.entries :=
  ⟨mem_of_lookup, lookup_of_mem dictionary.increasing⟩

/-- A dictionary is determined by its answers. -/
theorem ext_get?
    [KeyOrder Key]
    {first second : Dictionary Key Value}
    (same : ∀ key, first.get? key = second.get? key) :
    first = second := by
  have mem_iff : ∀ entry, entry ∈ first.entries ↔ entry ∈ second.entries := by
    intro entry
    obtain ⟨key, value⟩ := entry
    rw [← get?_eq_some_iff, ← get?_eq_some_iff, same]
  obtain ⟨entries, increasing⟩ := first
  obtain ⟨others, othersIncreasing⟩ := second
  simp only [mk.injEq] at mem_iff ⊢
  clear same
  induction entries generalizing others with
  | nil =>
      cases others with
      | nil => rfl
      | cons other others => exact absurd ((mem_iff other).mpr (by simp)) (by simp)
  | cons entry entries ih =>
      cases others with
      | nil => exact absurd ((mem_iff entry).mp (by simp)) (by simp)
      | cons other others =>
          rw [List.pairwise_cons] at increasing othersIncreasing
          have heads : entry = other := by
            rcases List.mem_cons.mp ((mem_iff entry).mp (by simp)) with equal | later
            · exact equal
            · rcases List.mem_cons.mp ((mem_iff other).mpr (by simp)) with equal | earlier
              · exact equal.symm
              · exact absurd (increasing.1 _ earlier) (KeyOrder.asymm (othersIncreasing.1 _ later))
          subst heads
          have tails : ∀ member, member ∈ entries ↔ member ∈ others := by
            intro member
            have whole := mem_iff member
            simp only [List.mem_cons] at whole
            constructor
            · intro inside
              rcases whole.mp (Or.inr inside) with equal | inside'
              · have less := increasing.1 _ inside
                rw [equal] at less
                exact absurd less (KeyOrder.asymm less)
              · exact inside'
            · intro inside
              rcases whole.mpr (Or.inr inside) with equal | inside'
              · have less := othersIncreasing.1 _ inside
                rw [equal] at less
                exact absurd less (KeyOrder.asymm less)
              · exact inside'
          rw [ih increasing.2 others othersIncreasing.2 tails]

/-- Entries whose keys all satisfy a condition, as a dictionary. -/
def filter (keep : Key → Bool) (dictionary : Dictionary Key Value) : Dictionary Key Value where
  entries := dictionary.entries.filter fun entry => keep entry.1
  increasing := dictionary.increasing.filter _

/-- A filtered dictionary answers for the keys that were kept, as before. -/
@[simp]
theorem get?_filter
    (keep : Key → Bool)
    (dictionary : Dictionary Key Value)
    (key : Key) :
    (dictionary.filter keep).get? key = if keep key then dictionary.get? key else none := by
  show lookup key (dictionary.entries.filter fun entry => keep entry.1) =
    if keep key then lookup key dictionary.entries else none
  generalize dictionary.entries = entries
  induction entries with
  | nil => simp [lookup]
  | cons entry rest ih =>
      by_cases kept : keep entry.1 <;> by_cases same : key = entry.1 <;>
        simp_all [lookup]

section Insert

variable [DecidableLT Key]

/-- The entry is put where its key belongs; an entry with the same key is replaced. -/
def insertEntry (key : Key) (value : Value) : List (Key × Value) → List (Key × Value)
  | [] => [(key, value)]
  | (other, old) :: rest =>
      if key < other then
        (key, value) :: (other, old) :: rest
      else if key = other then
        (key, value) :: rest
      else
        (other, old) :: insertEntry key value rest

/-- Only the new entry comes in. -/
theorem mem_of_mem_insertEntry
    {key : Key}
    {value : Value}
    {entries : List (Key × Value)}
    {entry : Key × Value}
    (member : entry ∈ insertEntry key value entries) :
    entry = (key, value) ∨ entry ∈ entries := by
  induction entries with
  | nil => simpa [insertEntry] using member
  | cons head rest ih =>
      simp only [insertEntry] at member
      split at member
      · simpa using member
      · split at member
        · rcases List.mem_cons.mp member with same | later
          · exact Or.inl same
          · exact Or.inr (List.mem_cons_of_mem _ later)
        · rcases List.mem_cons.mp member with same | later
          · exact Or.inr (by simp [same])
          · exact (ih later).imp_right (List.mem_cons_of_mem _)

/-- The new value is found under its key, every other key is untouched. -/
theorem lookup_insertEntry
    (key : Key)
    (value : Value)
    (entries : List (Key × Value))
    (other : Key) :
    lookup other (insertEntry key value entries) =
      if other = key then some value else lookup other entries := by
  induction entries with
  | nil => simp [insertEntry, lookup]
  | cons head rest ih =>
      by_cases before : key < head.1
      · simp [insertEntry, lookup, before]
      · by_cases same : key = head.1
        · subst same
          by_cases equal : other = head.1 <;> simp [insertEntry, lookup, before, equal]
        · by_cases equal : other = head.1
          · subst equal
            simp [insertEntry, lookup, before, same, Ne.symm same]
          · simp [insertEntry, lookup, before, same, equal, ih]

variable [KeyOrder Key]

/-- An entry with the greatest key comes last. -/
theorem insertEntry_of_forall_lt
    {key : Key}
    (value : Value)
    {entries : List (Key × Value)}
    (greatest : ∀ entry ∈ entries, entry.1 < key) :
    insertEntry key value entries = entries ++ [(key, value)] := by
  induction entries with
  | nil => rfl
  | cons head rest ih =>
      have less := greatest head List.mem_cons_self
      have different : key ≠ head.1 := by
        intro same
        rw [same] at less
        exact KeyOrder.asymm less less
      have later := ih fun entry member => greatest entry (List.mem_cons_of_mem _ member)
      simp [insertEntry, KeyOrder.asymm less, different, later]

/-- Putting an entry where its key belongs keeps the order. -/
theorem increasing_insertEntry
    (key : Key)
    (value : Value)
    {entries : List (Key × Value)}
    (increasing : entries.Pairwise fun first second => first.1 < second.1) :
    (insertEntry key value entries).Pairwise fun first second => first.1 < second.1 := by
  induction entries with
  | nil => simp [insertEntry]
  | cons head rest ih =>
      have split := List.pairwise_cons.mp increasing
      by_cases before : key < head.1
      · simp only [insertEntry, before, if_true]
        refine List.pairwise_cons.mpr ⟨fun entry member => ?_, increasing⟩
        rcases List.mem_cons.mp member with same | later
        · simpa [same] using before
        · exact KeyOrder.trans before (split.1 _ later)
      · by_cases same : key = head.1
        · subst same
          simp only [insertEntry, before, if_false, if_true]
          exact List.pairwise_cons.mpr ⟨split.1, split.2⟩
        · simp only [insertEntry, before, same, if_false]
          refine List.pairwise_cons.mpr ⟨fun entry member => ?_, ih split.2⟩
          rcases mem_of_mem_insertEntry member with equal | later
          · rw [equal]
            rcases KeyOrder.trichotomy key head.1 with less | equal | greater
            · exact absurd less before
            · exact absurd equal same
            · exact greater
          · exact split.1 _ later

/-- The dictionary with a value for a key, whatever the key had before. -/
def insert (dictionary : Dictionary Key Value) (key : Key) (value : Value) :
    Dictionary Key Value where
  entries := insertEntry key value dictionary.entries
  increasing := increasing_insertEntry key value dictionary.increasing

/-- The new value is found under its key, every other key is untouched. -/
@[simp]
theorem get?_insert
    (dictionary : Dictionary Key Value)
    (key : Key)
    (value : Value)
    (other : Key) :
    (dictionary.insert key value).get? other =
      if other = key then some value else dictionary.get? other :=
  lookup_insertEntry key value dictionary.entries other

/-- The dictionary of a list of entries, of which later ones win. -/
def ofList (entries : List (Key × Value)) : Dictionary Key Value :=
  entries.foldl (fun dictionary entry => dictionary.insert entry.1 entry.2) empty

end Insert

end Dictionary
end Phrasebook
