import Mathlib.Data.List.Induction
import Mathlib.Data.List.Pairwise
import Phrasebook.Proofs.CallSite.Embedding
import Phrasebook.Survey

/-!
# Functions with longer names

A call is read from the name of its function on, and what stands in front of the name is not looked
at.  A call of a function with a longer name, which ends in the name of the function, is therefore
spelled as a call of the function as well, from the middle of its name on.

The module tells when such a call is found: always, unless the place where it would begin is taken
by an earlier call.
-/

namespace Phrasebook
namespace CallSite

open Text

variable {function text : Text}

/-- The last character of the text may stand in a name. -/
def EndsInName (text : Text) : Prop :=
  ∃ earlier char, text = earlier ++ [char] ∧ Include.isNameChar char = true

/-- The position in the text is right behind a character that may stand in a name. -/
def BehindName (text : Text) (position : Nat) : Prop :=
  ∃ front rest, text = front ++ rest ∧ byteLength front = position ∧ EndsInName front

/-! ## Names in front of a position -/

theorem endsInName_append
    {word : Text}
    (isName : IsFunctionName word)
    (nonempty : word ≠ [])
    (front : Text) :
    EndsInName (front ++ word) := by
  refine ⟨front ++ word.dropLast, word.getLast nonempty, ?_,
    isName _ (List.getLast_mem nonempty)⟩
  rw [List.append_assoc, List.dropLast_concat_getLast nonempty]

/-- A text ends with a name that goes back as far as it can, though it may be empty. -/
theorem exists_longest_name (text : Text) :
    ∃ front word, text = front ++ word ∧ IsFunctionName word ∧ ¬EndsInName front := by
  induction text using List.reverseRecOn with
  | nil => exact ⟨[], [], rfl, by simp [IsFunctionName], by simp [EndsInName]⟩
  | append_singleton text char ih =>
      by_cases ofName : Include.isNameChar char = true
      · obtain ⟨front, word, rfl, isName, outside⟩ := ih
        refine ⟨front, word ++ [char], by simp, ?_, outside⟩
        simpa [IsFunctionName, or_imp, forall_and] using ⟨isName, ofName⟩
      · refine ⟨text ++ [char], [], by simp, by simp [IsFunctionName], ?_⟩
        rintro ⟨earlier, last, whole, isName⟩
        have same : [char] = [last] := List.append_inj_right' whole rfl
        injection same with same
        exact ofName (same ▸ isName)

/-- A call of the longer name is spelled by the call of the shorter one behind the rest of it. -/
theorem spells_append_iff
    {word call : Text}
    {site : CallSite} :
    Spells (word ++ function) site (word ++ call) ↔ Spells function site call := by
  constructor
  · intro spelled
    generalize whole : word ++ call = longer at spelled
    cases spelled with
    | call gap₁ gap₂ gap₃ gap₄ gap₅ plain escaped ranked noted =>
        rw [List.append_assoc] at whole
        rw [List.append_cancel_left whole]
        exact .call gap₁ gap₂ gap₃ gap₄ gap₅ plain escaped ranked noted
  · intro spelled
    cases spelled with
    | call gap₁ gap₂ gap₃ gap₄ gap₅ plain escaped ranked noted =>
        rw [← List.append_assoc]
        exact .call gap₁ gap₂ gap₃ gap₄ gap₅ plain escaped ranked noted

/-! ## Where calls begin -/

theorem eq_nil_of_byteLength_append
    {front gap : Text}
    (same : byteLength (front ++ gap) = byteLength front) :
    gap = [] := by
  by_contra filled
  have longer := byteLength_pos filled
  rw [byteLength_append] at same
  omega

/-- A position in a text is behind one beginning of it only. -/
theorem eq_of_byteLength_eq
    {front rest other behind : Text}
    (whole : front ++ rest = other ++ behind)
    (same : byteLength front = byteLength other) :
    front = other := by
  rcases List.append_eq_append_iff.mp whole with ⟨gap, rfl, -⟩ | ⟨gap, rfl, -⟩
  · rw [eq_nil_of_byteLength_append same.symm, List.append_nil]
  · rw [eq_nil_of_byteLength_append same, List.append_nil]

/-- No byte belongs to both. -/
def Occurrence.Apart (first second : Occurrence) : Prop :=
  first.stop ≤ second.start ∨ second.stop ≤ first.start

instance : Std.Symm Occurrence.Apart :=
  ⟨fun _ _ => Or.symm⟩

theorem apart_of_mem_scan
    {first second : Occurrence}
    (member : first ∈ scan function text)
    (memberToo : second ∈ scan function text)
    (different : first ≠ second) :
    first.Apart second := by
  have inOrder : (scan function text).Pairwise Occurrence.Apart :=
    pairwise_scanFrom.imp .inl
  exact inOrder.forall member memberToo different

/-- A call that is spelled at a position is found there unless a call found has it inside. -/
theorem exists_start_iff
    {site : CallSite}
    {front call behind : Text}
    (whole : text = front ++ call ++ behind)
    (spelled : Spells function site call) :
    (∃ occurrence ∈ scan function text, occurrence.start = byteLength front) ↔
      ∀ occurrence ∈ scan function text,
        ¬(occurrence.start < byteLength front ∧ byteLength front < occurrence.stop) := by
  constructor
  · rintro ⟨occurrence, member, start⟩ other memberToo ⟨before, inside⟩
    have nonempty := (standsIn_of_mem_scanFrom member).start_lt_stop
    have different : occurrence ≠ other := by
      rintro rfl
      omega
    have apart : occurrence.stop ≤ other.start ∨ other.stop ≤ occurrence.start :=
      apart_of_mem_scan member memberToo different
    omega
  · intro free
    rw [List.append_assoc] at whole
    obtain ⟨occurrence, member, start, stop⟩ := exists_covers_of_spells spelled front whole
    rw [Nat.zero_add] at start stop
    refine ⟨occurrence, member, Nat.le_antisymm start (Nat.le_of_not_lt fun before => ?_)⟩
    exact free occurrence member ⟨before, stop⟩

/-! ## Calls of longer names -/

/-- What is found is a call of a function whose whole name ends in the name of the function. -/
theorem exists_longer_call
    {occurrence : Occurrence}
    (member : occurrence ∈ scan function text) :
    ∃ front word call behind, text = front ++ word ++ call ++ behind ∧
      IsFunctionName word ∧ ¬EndsInName front ∧
      occurrence.start = byteLength (front ++ word) ∧
      occurrence.stop = byteLength (front ++ word ++ call) ∧
      Spells (word ++ function) occurrence.site (word ++ call) ∧
      (BehindName text occurrence.start ↔ word ≠ []) := by
  obtain ⟨before, call, behind, rfl, start, stop, spelled⟩ := standsIn_of_mem_scanFrom member
  rw [Nat.zero_add] at start stop
  obtain ⟨front, word, rfl, isName, outside⟩ := exists_longest_name before
  refine ⟨front, word, call, behind, rfl, isName, outside, start, stop,
    spells_append_iff.mpr spelled, ?_, ?_⟩
  · rintro ⟨earlier, rest, whole, same, ends⟩ rfl
    rw [List.append_assoc] at whole
    have equal := eq_of_byteLength_eq whole (start.symm.trans same.symm)
    rw [List.append_nil] at equal
    exact outside (equal ▸ ends)
  · intro nonempty
    exact ⟨front ++ word, call ++ behind, by simp, start.symm,
      endsInName_append isName nonempty front⟩

/--
Every call that is found is a call of a function whose whole name, as far as it goes back, ends in
the name of the function.  None begins inside such a name exactly if each call of a function with a
longer name has the place where it would begin taken by a call found earlier.
-/
theorem scan_spares_longer_names_iff (function text : Text) :
    (∀ occurrence ∈ scan function text,
      ∃ front word call behind, text = front ++ word ++ call ++ behind ∧
        IsFunctionName word ∧ ¬EndsInName front ∧
        occurrence.start = byteLength (front ++ word) ∧
        occurrence.stop = byteLength (front ++ word ++ call) ∧
        Spells (word ++ function) occurrence.site (word ++ call) ∧
        (BehindName text occurrence.start ↔ word ≠ [])) ∧
    ((∀ occurrence ∈ scan function text, ¬BehindName text occurrence.start) ↔
      ∀ front word call behind site, text = front ++ word ++ call ++ behind →
        IsFunctionName word → word ≠ [] → Spells (word ++ function) site (word ++ call) →
        ∃ occurrence ∈ scan function text,
          occurrence.start < byteLength (front ++ word) ∧
            byteLength (front ++ word) < occurrence.stop) := by
  refine ⟨fun occurrence => exists_longer_call, ?_, ?_⟩
  · intro spared front word call behind site whole isName nonempty spelled
    by_contra untaken
    obtain ⟨occurrence, member, start⟩ :=
      (exists_start_iff whole (spells_append_iff.mp spelled)).mpr
        fun other memberToo taken => untaken ⟨other, memberToo, taken⟩
    rw [List.append_assoc] at whole
    exact spared occurrence member ⟨front ++ word, call ++ behind, whole, start.symm,
      endsInName_append isName nonempty front⟩
  · intro taken occurrence member behindName
    obtain ⟨front, word, call, behind, whole, isName, -, start, -, spelled, longer⟩ :=
      exists_longer_call member
    obtain ⟨other, memberToo, before, inside⟩ := taken front word call behind occurrence.site
      whole isName (longer.mp behindName) spelled
    exact (exists_start_iff whole (spells_append_iff.mp spelled)).mp
      ⟨occurrence, member, start⟩ other memberToo ⟨before, inside⟩

/-- A call of another function brings an entity into a module. -/
theorem scan_spares_longer_names_ne :
    let text := "my_t('A.B', 'Save')".toList
    let disk : Disk :=
      (((Disk.blank.graft [] "cms".toList .folder).graft
        ["cms".toList] "_config.php".toList (.file [])).graft
        ["cms".toList] "code".toList .folder).graft
        ["cms".toList, "code".toList] "Page.php".toList (.file (encode text))
    let collector : Collector := { settings := {}, ignored := [] }
    IsFunctionName collector.settings.function ∧
      (∃ occurrence ∈ scan collector.settings.function text, BehindName text occurrence.start) ∧
      (collector.survey disk "cms".toList).entities.contains "A.B".toList = true := by
  intro text disk collector
  refine ⟨by decide, ?_, by decide +kernel⟩
  refine ⟨⟨⟨"'A.B'".toList, "'Save'".toList, none, none⟩, 2, 19⟩, by decide +kernel,
    "my".toList, "_t('A.B', 'Save')".toList, rfl, rfl, "m".toList, 'y', rfl, rfl⟩

end CallSite
end Phrasebook
