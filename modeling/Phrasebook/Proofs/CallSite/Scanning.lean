import Phrasebook.Proofs.CallSite.Grammar

/-!
# What a scan finds

A scan reports calls that the grammar spells, from left to right and apart from each other.  It
misses a call only by having taken its first byte for an earlier one.

All three facts are proved for a scan that starts at any position, by induction along the scan:
either a call is read and the scan goes on behind it, or one character is passed over.
-/

namespace Phrasebook

open Text

namespace Text

theorem byteLength_pos
    {text : Text}
    (nonempty : text ≠ []) :
    0 < byteLength text := by
  cases text with
  | nil => exact absurd rfl nonempty
  | cons char rest =>
      have first : 0 < (encodeChar char).length := by
        unfold encodeChar
        dsimp only
        split
        · simp
        · split
          · simp
          · split <;> simp
      simp only [byteLength, encode, List.flatMap_cons, List.length_append]
      omega

end Text

namespace CallSite

variable {function text : Text} {position : Nat}

theorem Spells.ne_nil
    {site : CallSite}
    {call : Text}
    (spelled : Spells function site call) :
    call ≠ [] := by
  cases spelled
  simp

namespace Occurrence

/-- A call is spelled in a text at the bytes that are reported, counted from a position. -/
def StandsIn
    (function : Text)
    (position : Nat)
    (text : Text)
    (occurrence : Occurrence) : Prop :=
  ∃ front call behind, text = front ++ call ++ behind ∧
    occurrence.start = position + byteLength front ∧
    occurrence.stop = position + byteLength (front ++ call) ∧
    Spells function occurrence.site call

variable {occurrence : Occurrence}

theorem StandsIn.append
    (front : Text)
    {behind : Text}
    (stands : occurrence.StandsIn function (position + byteLength front) behind) :
    occurrence.StandsIn function position (front ++ behind) := by
  obtain ⟨gap, call, rest, rfl, start, stop, spelled⟩ := stands
  refine ⟨front ++ gap, call, rest, by simp, ?_, ?_, spelled⟩
  · rw [start, byteLength_append, Nat.add_assoc]
  · rw [stop, List.append_assoc, byteLength_append front, Nat.add_assoc]

theorem StandsIn.start_lt_stop
    (stands : occurrence.StandsIn function position text) :
    occurrence.start < occurrence.stop := by
  obtain ⟨front, call, behind, -, start, stop, spelled⟩ := stands
  have nonempty := byteLength_pos spelled.ne_nil
  rw [start, stop, byteLength_append]
  omega

theorem StandsIn.position_le
    (stands : occurrence.StandsIn function position text) :
    position ≤ occurrence.start := by
  obtain ⟨front, call, behind, -, start, -, -⟩ := stands
  omega

/-- The same site in a text that has so many more bytes in front. -/
def shift (offset : Nat) (occurrence : Occurrence) : Occurrence :=
  { occurrence with start := occurrence.start + offset, stop := occurrence.stop + offset }

/-- The position lies inside the reported bytes. -/
def Covers (occurrence : Occurrence) (position : Nat) : Prop :=
  occurrence.start ≤ position ∧ position < occurrence.stop

theorem Covers.append
    {front gap : Text}
    (covers : occurrence.Covers (position + byteLength front + byteLength gap)) :
    occurrence.Covers (position + byteLength (front ++ gap)) := by
  rwa [byteLength_append, ← Nat.add_assoc]

end Occurrence

/-! ## One step of a scan -/

theorem scanFrom_of_read?
    {site : CallSite}
    {call rest : Text}
    (read : read? function (call ++ rest) = some (site, rest))
    (position : Nat) :
    scanFrom function position (call ++ rest) =
      ⟨site, position, position + byteLength call⟩ ::
        scanFrom function (position + byteLength call) rest := by
  rw [scanFrom]
  split
  next found behind reread =>
    rw [read] at reread
    injection reread with same
    injection same with first second
    subst first second
    simp
  next unread =>
    rw [read] at unread
    exact absurd unread (by simp)

theorem scanFrom_cons_of_none
    {char : Char}
    {rest : Text}
    (unread : read? function (char :: rest) = none)
    (position : Nat) :
    scanFrom function position (char :: rest) =
      scanFrom function (position + byteLength [char]) rest := by
  rw [scanFrom]
  split
  next found behind reread =>
    rw [unread] at reread
    exact absurd reread (by simp)
  next => rfl

/-- A scan passes over everything in front of which nothing is read. -/
theorem scanFrom_append_of_none
    {front : Text}
    {rest : Text}
    (unread : ∀ suffix, suffix <:+ front → suffix ≠ [] → read? function (suffix ++ rest) = none)
    (position : Nat) :
    scanFrom function position (front ++ rest) =
      scanFrom function (position + byteLength front) rest := by
  induction front generalizing position with
  | nil => rfl
  | cons char front ih =>
      have here := unread (char :: front) (List.suffix_refl _) (List.cons_ne_nil _ _)
      have later := ih fun suffix isSuffix =>
        unread suffix (isSuffix.trans (List.suffix_cons char front))
      have split : byteLength (char :: front) = byteLength [char] + byteLength front :=
        byteLength_append [char] front
      rw [List.cons_append] at here ⊢
      rw [scanFrom_cons_of_none here, later, split, Nat.add_assoc]

/-! ## What is reported -/

theorem standsIn_of_mem_scanFrom
    {occurrence : Occurrence}
    (member : occurrence ∈ scanFrom function position text) :
    occurrence.StandsIn function position text := by
  fun_induction scanFrom function position text with
  | case1 position text site rest read stop ih =>
      obtain ⟨call, spelled, rfl⟩ := read?_sound read
      have stopHere : stop = position + byteLength call := by
        simp [stop]
      rcases List.mem_cons.mp member with rfl | later
      · exact ⟨[], call, rest, rfl, rfl, stopHere, spelled⟩
      · have inside := ih later
        rw [stopHere] at inside
        exact inside.append call
  | case2 => simp at member
  | case3 position char rest unread ih => exact (ih member).append [char]

/-- Where a scan starts only moves what it finds. -/
theorem scanFrom_add
    (offset : Nat) :
    scanFrom function (position + offset) text =
      (scanFrom function position text).map (Occurrence.shift offset) := by
  fun_induction scanFrom function position text with
  | case1 position text site rest read stop ih =>
      obtain ⟨call, -, rfl⟩ := read?_sound read
      have stopHere : stop = position + byteLength call := by
        simp [stop]
      have moved : position + offset + byteLength call = stop + offset := by
        omega
      rw [scanFrom_of_read? read, moved, ih, List.map_cons, Occurrence.shift]
  | case2 position unread =>
      rw [scanFrom]
      split
      next found behind reread =>
        rw [unread] at reread
        exact absurd reread (by simp)
      next => rfl
  | case3 position char rest unread ih =>
      have moved : position + offset + byteLength [char] =
          position + byteLength [char] + offset := by
        omega
      rw [scanFrom_cons_of_none unread, moved, ih]

/-- A scan of a text that begins with a call finds the call and what is behind it. -/
theorem scan_of_read?
    {site : CallSite}
    {call rest : Text}
    (read : read? function (call ++ rest) = some (site, rest)) :
    scan function (call ++ rest) =
      ⟨site, 0, byteLength call⟩ ::
        (scan function rest).map (Occurrence.shift (byteLength call)) := by
  rw [scan, scanFrom_of_read? read, Nat.zero_add, scan, ← scanFrom_add, Nat.zero_add]

theorem scan_nil : scan function [] = [] := by
  rw [scan, scanFrom]
  split
  next found behind read =>
    have shorter := length_read? read
    exact absurd shorter (Nat.not_lt_zero _)
  next => rfl

theorem scan_of_read?_nil
    {site : CallSite}
    {call : Text}
    (read : read? function call = some (site, [])) :
    scan function call = [⟨site, 0, byteLength call⟩] := by
  have whole : read? function (call ++ []) = some (site, []) := by
    rwa [List.append_nil]
  have found := scan_of_read? whole
  rwa [List.append_nil, scan_nil] at found

theorem pairwise_scanFrom :
    (scanFrom function position text).Pairwise fun first second => first.stop ≤ second.start := by
  fun_induction scanFrom function position text with
  | case1 position text site rest read stop ih =>
      rw [List.pairwise_cons]
      refine ⟨?_, ih⟩
      intro later member
      exact (standsIn_of_mem_scanFrom member).position_le
  | case2 => exact .nil
  | case3 position char rest unread ih => exact ih

/-- Where a call is spelled, a call is reported that begins there or has begun before. -/
theorem exists_covers_of_spells
    {site : CallSite}
    {call behind : Text}
    (spelled : Spells function site call) :
    ∀ front, text = front ++ (call ++ behind) →
      ∃ occurrence ∈ scanFrom function position text,
        occurrence.Covers (position + byteLength front) := by
  fun_induction scanFrom function position text with
  | case1 position text found rest read stop ih =>
      intro front whole
      obtain ⟨taken, takenSpelled, rfl⟩ := read?_sound read
      have stopHere : stop = position + byteLength taken := by
        simp [stop]
      rcases List.append_eq_append_iff.mp whole with ⟨gap, rfl, cut⟩ | ⟨gap, rfl, cut⟩
      -- The call begins behind the one that was taken.
      · obtain ⟨occurrence, member, covers⟩ := ih gap cut
        rw [stopHere] at covers
        exact ⟨occurrence, List.mem_cons_of_mem _ member, covers.append⟩
      -- The call begins inside the one that was taken, or right behind it.
      · by_cases nothing : gap = []
        · obtain ⟨occurrence, member, covers⟩ := ih [] (by simpa [nothing] using cut.symm)
          rw [stopHere, nothing, List.append_nil] at covers
          exact ⟨occurrence, List.mem_cons_of_mem _ member, covers⟩
        · refine ⟨_, List.mem_cons_self, Nat.le_add_right position _, ?_⟩
          have positive := byteLength_pos nothing
          rw [byteLength_append] at stopHere
          dsimp only
          omega
  | case2 position unread =>
      intro front whole
      have nothing : call = [] := by
        simpa using (List.append_eq_nil_iff.mp (List.append_eq_nil_iff.mp whole.symm).2).1
      exact absurd nothing spelled.ne_nil
  | case3 position char rest unread ih =>
      intro front whole
      cases front with
      | nil =>
          obtain ⟨found, later, read⟩ := read?_complete spelled behind
          rw [List.nil_append] at whole
          rw [← whole, unread] at read
          exact absurd read (by simp)
      | cons head front =>
          injection whole with same inside
          subst same
          obtain ⟨occurrence, member, covers⟩ := ih front inside
          exact ⟨occurrence, member, covers.append⟩

/--
A scan finds exactly the calls of the grammar: each reported one is spelled at its bytes, they lie
apart in increasing order, and every place where a call is spelled is covered by a reported one.
-/
theorem scan_finds_calls (function text : Text) :
    (∀ occurrence ∈ scan function text, ∃ front call behind, text = front ++ call ++ behind ∧
      occurrence.start = byteLength front ∧ occurrence.stop = byteLength (front ++ call) ∧
      Spells function occurrence.site call) ∧
    (∀ occurrence ∈ scan function text, occurrence.start < occurrence.stop) ∧
    ((scan function text).Pairwise fun first second => first.stop ≤ second.start) ∧
    ∀ front call behind site, text = front ++ call ++ behind → Spells function site call →
      ∃ occurrence ∈ scan function text,
        occurrence.start ≤ byteLength front ∧ byteLength front < occurrence.stop := by
  refine ⟨?_, ?_, pairwise_scanFrom, ?_⟩
  · intro occurrence member
    simpa [Occurrence.StandsIn] using standsIn_of_mem_scanFrom member
  · intro occurrence member
    exact (standsIn_of_mem_scanFrom member).start_lt_stop
  · intro front call behind site whole spelled
    rw [List.append_assoc] at whole
    obtain ⟨occurrence, member, start, stop⟩ := exists_covers_of_spells spelled front whole
    rw [Nat.zero_add] at start stop
    exact ⟨occurrence, member, start, stop⟩

end CallSite
end Phrasebook
