import Mathlib.Data.Prod.Basic
import Mathlib.Order.Defs.LinearOrder
import Phrasebook.Entity.Map
import Phrasebook.Proofs.Sorting
import Phrasebook.Proofs.Text.ByteOrder

/-!
# The order of entries

Entries are ordered by value, then by priority, then by comment and at last by key.  Texts are
ordered by the bytes of their encodings, and a missing text comes before every other one.  Of two
different entries one precedes the other, so the same entries have only one order, in whatever order
they are at hand.
-/

namespace Phrasebook
namespace Entity

open Text

/-- A text comes before another one if its bytes do. -/
def ByBytes (first second : Text) : Prop :=
  encode first < encode second

/-- A missing text comes first, and the others are ordered by their bytes. -/
inductive MissingFirst : Option Text → Option Text → Prop
  /-- Nothing comes before something. -/
  | missing (text : Text) : MissingFirst none (some text)
  /-- Two texts are in their own order. -/
  | present {first second : Text} (before : ByBytes first second) :
      MissingFirst (some first) (some second)

/-- What entries are ordered by: value, priority, comment and key. -/
def ranks (entry : Text × Record) : Text × Option Text × Option Text × Text :=
  (entry.2.value, entry.2.priority, entry.2.comment, entry.1)

/-- Ranks are compared one after the other. -/
abbrev ByRanks : Text × Option Text × Option Text × Text → Text × Option Text × Option Text × Text →
    Prop :=
  Prod.Lex ByBytes (Prod.Lex MissingFirst (Prod.Lex MissingFirst ByBytes))

/-- An entry comes before another one if the first rank that differs does. -/
def Precedes (first second : Text × Record) : Prop :=
  ByRanks (ranks first) (ranks second)

/-! ## Orders in a line -/

theorem byBytes_iff {first second : Text} : ByBytes first second ↔ first < second :=
  encode_lt_encode_iff

instance : IsTrans Text ByBytes where
  trans _ _ _ before behind :=
    byBytes_iff.mpr (KeyOrder.trans (byBytes_iff.mp before) (byBytes_iff.mp behind))

instance : Std.Asymm ByBytes where
  asymm _ _ before behind := KeyOrder.asymm (byBytes_iff.mp before) (byBytes_iff.mp behind)

instance : Std.Trichotomous ByBytes :=
  Std.trichotomous_of_rel_or_eq_or_rel_swap fun {first second} => by
    simp only [byBytes_iff]
    exact KeyOrder.trichotomy first second

instance : IsTrans (Option Text) MissingFirst where
  trans _ _ _
    | .missing _, .present _ => .missing _
    | .present before, .present behind => .present (IsTrans.trans _ _ _ before behind)

instance : Std.Asymm MissingFirst where
  asymm _ _
    | .present before, .present behind => Std.Asymm.asymm _ _ before behind

instance : Std.Trichotomous MissingFirst :=
  Std.trichotomous_of_rel_or_eq_or_rel_swap fun {first second} => by
    cases first with
    | none =>
        cases second with
        | none => exact Or.inr (Or.inl rfl)
        | some second => exact Or.inl (.missing second)
    | some first =>
        cases second with
        | none => exact Or.inr (Or.inr (.missing first))
        | some second =>
            rcases trichotomous_of ByBytes first second with before | same | behind
            · exact Or.inl (.present before)
            · exact Or.inr (Or.inl (congrArg some same))
            · exact Or.inr (Or.inr (.present behind))

variable {first second third : Text × Record}

theorem Precedes.trans
    (before : Precedes first second)
    (behind : Precedes second third) :
    Precedes first third :=
  Prod.Lex.trans before behind

theorem Precedes.asymm (before : Precedes first second) : ¬Precedes second first :=
  Std.Asymm.asymm (r := ByRanks) _ _ before

theorem eq_of_ranks (same : ranks first = ranks second) : first = second := by
  obtain ⟨key, value, priority, comment⟩ := first
  simp only [ranks, Prod.mk.injEq] at same
  obtain ⟨rfl, rfl, rfl, rfl⟩ := same
  rfl

theorem precedes_trichotomy (first second : Text × Record) :
    Precedes first second ∨ first = second ∨ Precedes second first := by
  rcases trichotomous_of ByRanks (ranks first) (ranks second) with before | same | behind
  · exact Or.inl before
  · exact Or.inr (Or.inl (eq_of_ranks same))
  · exact Or.inr (Or.inr behind)

/-! ## Comparisons -/

theorem compareOfLessAndEq_eq_lt_iff {first second : Text} :
    compareOfLessAndEq first second = .lt ↔ ByBytes first second := by
  rw [compareOfLessAndEq_eq_lt, byBytes_iff]

theorem compareOfLessAndEq_eq_eq_iff {first second : Text} :
    compareOfLessAndEq first second = .eq ↔ first = second := by
  unfold compareOfLessAndEq
  by_cases less : first < second
  · have apart : first ≠ second := fun same => KeyOrder.asymm less (same ▸ less)
    simp [less, apart]
  · by_cases same : first = second <;> simp [less, same]

theorem compareOptional_eq_lt_iff {first second : Option Text} :
    Record.compareOptional first second = .lt ↔ MissingFirst first second := by
  cases first <;> cases second
  case none.none => simp [Record.compareOptional]; nofun
  case none.some => simp [Record.compareOptional, MissingFirst.missing]
  case some.none => simp [Record.compareOptional]; nofun
  case some.some first second =>
    rw [Record.compareOptional, compareOfLessAndEq_eq_lt_iff]
    exact ⟨.present, fun | .present before => before⟩

theorem compareOptional_eq_eq_iff {first second : Option Text} :
    Record.compareOptional first second = .eq ↔ first = second := by
  cases first <;> cases second <;> simp [Record.compareOptional, compareOfLessAndEq_eq_eq_iff]

theorem compareEntries_eq_lt_iff :
    Map.compareEntries first second = .lt ↔ Precedes first second := by
  simp only [Map.compareEntries, Record.compare, Ordering.then_eq_lt, Ordering.then_eq_eq,
    compareOfLessAndEq_eq_lt_iff, compareOfLessAndEq_eq_eq_iff, compareOptional_eq_lt_iff,
    compareOptional_eq_eq_iff, Precedes, ranks, Prod.lex_def, and_or_left, and_assoc, or_assoc]

theorem compareEntries_eq_eq_iff :
    Map.compareEntries first second = .eq ↔ first = second := by
  constructor
  · intro equal
    simp only [Map.compareEntries, Record.compare, Ordering.then_eq_eq,
      compareOfLessAndEq_eq_eq_iff, compareOptional_eq_eq_iff] at equal
    obtain ⟨⟨value, priority, comment⟩, key⟩ := equal
    exact eq_of_ranks (by simp only [ranks, value, priority, comment, key])
  · rintro rfl
    simp only [Map.compareEntries, Record.compare, Ordering.then_eq_eq,
      compareOfLessAndEq_eq_eq_iff, compareOptional_eq_eq_iff, and_self]

theorem isLE_compareEntries_iff :
    (Map.compareEntries first second).isLE ↔ Precedes first second ∨ first = second := by
  rw [Ordering.isLE_iff_eq_lt_or_eq_eq, compareEntries_eq_lt_iff, compareEntries_eq_eq_iff]

/-! ## Sorted entries -/

/-- Entries in their order. -/
def inOrder (entries : List (Text × Record)) : List (Text × Record) :=
  entries.mergeSort fun first second => (Map.compareEntries first second).isLE

theorem sorted_eq_inOrder (map : Map) : map.sorted = inOrder map.entries :=
  rfl

theorem perm_inOrder (entries : List (Text × Record)) : (inOrder entries).Perm entries :=
  List.mergeSort_perm entries _

theorem pairwise_inOrder
    {entries : List (Text × Record)}
    (distinct : entries.Nodup) :
    (inOrder entries).Pairwise Precedes :=
  Sorting.increasing_mergeSort Precedes.trans precedes_trichotomy isLE_compareEntries_iff distinct

/-- The order of entries does not depend on the order in which they are at hand. -/
theorem inOrder_eq_of_perm
    {entries others : List (Text × Record)}
    (distinct : entries.Nodup)
    (arranged : entries.Perm others) :
    inOrder entries = inOrder others := by
  have permuted : entries.Perm (inOrder others) := arranged.trans (perm_inOrder others).symm
  have othersDistinct : others.Nodup := arranged.nodup_iff.mp distinct
  exact Sorting.mergeSort_eq_of_increasing (pairwise_inOrder othersDistinct) permuted
    Precedes.asymm Precedes.trans precedes_trichotomy isLE_compareEntries_iff

end Entity
end Phrasebook
