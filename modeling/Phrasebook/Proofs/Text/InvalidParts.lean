import Mathlib.Tactic.MkIffOfInductiveProp
import Phrasebook.Proofs.Text.Decoding

/-!
# Invalid parts

Bytes are characters one after another, with parts in between that belong to no character.  Such a
part is as long as possible: it begins a character for as long as its bytes allow, and at least it
is one byte.  There is one way only to take bytes apart like that, and the decoder finds it.

While a sequence is open, its bytes are the first bytes of every point that has the bits read so
far.  A byte within the bounds keeps this, and the last one leaves a single point.
-/

namespace Phrasebook
namespace Text

/-! ## Characters and parts -/

/-- The first bytes of a character, or all of them. -/
def BeginsCharacter (part : Bytes) : Prop :=
  ∃ char, part <+: encodeChar char

/-- The part belongs to no character and is as long as the bytes behind it allow. -/
structure InvalidPart (part rest : Bytes) : Prop where
  /-- No character stands where the part begins. -/
  noCharacter : ∀ char, ¬encodeChar char <+: part ++ rest
  /-- A part of several bytes begins a character. -/
  begins : 1 < part.length → BeginsCharacter part
  /-- There is at least one byte. -/
  nonempty : part ≠ []
  /-- The next byte does not continue the part. -/
  longest : ∀ byte behind, rest = byte :: behind → ¬BeginsCharacter (part ++ [byte])

/-- The bytes are characters and invalid parts one after another. -/
@[mk_iff]
inductive ConsistsOf : Bytes → List Decoded → Prop
  | nothing : ConsistsOf [] []
  | char (char : Char) {rest : Bytes} {units : List Decoded} :
      ConsistsOf rest units →
      ConsistsOf (encodeChar char ++ rest) (some char :: units)
  | invalid {part rest : Bytes} {units : List Decoded} :
      InvalidPart part rest →
      ConsistsOf rest units →
      ConsistsOf (part ++ rest) (none :: units)

theorem toNat_ofNat_of_isValidChar
    {point : Nat}
    (valid : point.isValidChar) :
    (Char.ofNat point).toNat = point := by
  rw [Char.ofNat, dif_pos valid]
  rfl

theorem encodeChar_of_firstByte
    {byte : UInt8}
    {char : Char}
    (whole : firstByte byte = .whole char) :
    encodeChar char = [byte] := by
  unfold firstByte at whole
  dsimp only at whole
  repeat' split at whole
  all_goals cases whole
  next single =>
    have point : (Char.ofNat byte.toNat).toNat = byte.toNat :=
      toNat_ofNat_of_isValidChar (.inl (by omega))
    rw [encodeChar, point, if_pos single, UInt8.ofNat_toNat]

/-! ## Open sequences -/

/-- The bytes read are the first ones of all points that have the bits read. -/
structure OpenSequence.Reached
    (sequence : OpenSequence)
    (earlier : Nat)
    (part : Bytes) : Prop where
  /-- The bytes in front open the sequence, whatever follows. -/
  read : ∀ rest, unitsFrom none (part ++ rest) = unitsFrom (some sequence) rest
  /-- Bytes within the bounds are continuations. -/
  awaits : sequence.AwaitsContinuation
  /-- Some byte is within the bounds. -/
  ordered : sequence.low ≤ sequence.high
  /-- The bytes are those of the bits, with the mark for all bytes of the sequence. -/
  bytes : part = bytesOf (leadMark (earlier + sequence.later + 1)) earlier sequence.bits
  /-- A point that goes on within the bounds is a character with as many bytes. -/
  points : ∀ point, ∀ byte : UInt8, sequence.low ≤ byte.toNat → byte.toNat ≤ sequence.high →
    point / 0x40 ^ sequence.later = sequence.bits * 0x40 + byte.toNat % 0x40 →
    point.isValidChar ∧ laterBytes point = earlier + sequence.later + 1

theorem low_le_high_of_firstByte
    {byte : UInt8}
    {sequence : OpenSequence}
    (opened : firstByte byte = .opens sequence) :
    sequence.low ≤ sequence.high := by
  rcases firstByte_eq_opens_iff.mp opened with ⟨-, -, rfl⟩ | ⟨-, -, rfl⟩ | ⟨-, -, rfl⟩
  · simp
  · dsimp only
    split <;> split <;> omega
  · dsimp only
    split <;> split <;> omega

/-- A byte that opens a sequence leaves the points open that begin with its bits. -/
theorem reached_of_firstByte
    {byte : UInt8}
    {sequence : OpenSequence}
    (opened : firstByte byte = .opens sequence) :
    sequence.Reached 0 [byte] := by
  have read : ∀ rest, unitsFrom none ([byte] ++ rest) = unitsFrom (some sequence) rest :=
    fun _ => unitsFrom_of_opens opened
  have awaits := awaitsContinuation_of_firstByte opened
  have ordered := low_le_high_of_firstByte opened
  have same : ∀ value, value = byte.toNat → [byte] = [UInt8.ofNat value] := by
    rintro _ rfl
    rw [UInt8.ofNat_toNat]
  rcases firstByte_eq_opens_iff.mp opened with ⟨least, below, rfl⟩ | ⟨least, below, rfl⟩ |
    ⟨least, below, rfl⟩
  · refine ⟨read, awaits, ordered, same _ (by simp [leadMark]; omega), ?_⟩
    intro point next low high value
    simp only [pow_zero, Nat.div_one] at value low high
    rw [laterBytes, if_neg (by omega), if_pos (by omega)]
    exact ⟨.inl (by omega), rfl⟩
  · refine ⟨read, awaits, ordered, same _ (by simp [leadMark]; omega), ?_⟩
    intro point next low high value
    simp only [pow_one] at value low high
    have bounds : 0x80 ≤ next.toNat ∧ next.toNat < 0xC0 ∧
        (byte.toNat = 0xE0 → 0xA0 ≤ next.toNat) ∧ (byte.toNat = 0xED → next.toNat < 0xA0) := by
      split at low <;> split at high <;> omega
    rw [laterBytes, if_neg (by omega), if_neg (by omega), if_pos (by omega)]
    refine ⟨?_, rfl⟩
    unfold Nat.isValidChar
    omega
  · refine ⟨read, awaits, ordered, same _ (by simp [leadMark]; omega), ?_⟩
    intro point next low high value
    dsimp only at value low high
    have bounds : 0x80 ≤ next.toNat ∧ next.toNat < 0xC0 ∧
        (byte.toNat = 0xF0 → 0x90 ≤ next.toNat) ∧ (byte.toNat = 0xF4 → next.toNat < 0x90) := by
      split at low <;> split at high <;> omega
    rw [laterBytes, if_neg (by omega), if_neg (by omega), if_neg (by omega)]
    exact ⟨.inr (by omega), rfl⟩

section Continuing

variable {part : Bytes} {byte : UInt8} {later low high bits earlier : Nat}

/-- The bits read with another byte are those before it and six of its own. -/
theorem bits_of_inside
    (awaits : OpenSequence.AwaitsContinuation ⟨later, low, high, bits⟩)
    (bounded : low ≤ byte.toNat ∧ byte.toNat ≤ high) :
    (bits * 0x40 + byte.toNat % 0x40) / 0x40 = bits ∧
      UInt8.ofNat (0x80 + (bits * 0x40 + byte.toNat % 0x40) % 0x40) = byte := by
  obtain ⟨least, most⟩ : 0x80 ≤ low ∧ high < 0xC0 := awaits
  have tail : 0x80 + (bits * 0x40 + byte.toNat % 0x40) % 0x40 = byte.toNat := by omega
  rw [tail, UInt8.ofNat_toNat]
  exact ⟨by omega, rfl⟩

/-- Another byte within the bounds is read along, and the bytes are still the first ones. -/
theorem OpenSequence.Reached.next
    (reached : OpenSequence.Reached ⟨later + 1, low, high, bits⟩ earlier part)
    (bounded : low ≤ byte.toNat ∧ byte.toNat ≤ high) :
    OpenSequence.Reached ⟨later, 0x80, 0xBF, bits * 0x40 + byte.toNat % 0x40⟩ (earlier + 1)
      (part ++ [byte]) := by
  obtain ⟨front, last⟩ := bits_of_inside reached.awaits bounded
  have total : earlier + (later + 1) + 1 = earlier + 1 + later + 1 := by omega
  refine ⟨?_, by simp [OpenSequence.AwaitsContinuation], by simp, ?_, ?_⟩
  · intro rest
    rw [List.append_assoc, reached.read, List.singleton_append, unitsFrom_inside bounded]
  · rw [bytesOf, front, last, ← total, ← reached.bytes]
  · intro point next atLeast atMost value
    dsimp only at value atLeast atMost ⊢
    rw [← total]
    refine reached.points point byte bounded.1 bounded.2 ?_
    dsimp only
    rw [Nat.pow_succ, ← Nat.div_div_eq_div_mul, value]
    omega

/-- The last byte within the bounds completes a character. -/
theorem OpenSequence.Reached.last
    (reached : OpenSequence.Reached ⟨0, low, high, bits⟩ earlier part)
    (bounded : low ≤ byte.toNat ∧ byte.toNat ≤ high) :
    encodeChar (Char.ofNat (bits * 0x40 + byte.toNat % 0x40)) = part ++ [byte] := by
  obtain ⟨front, last⟩ := bits_of_inside reached.awaits bounded
  obtain ⟨valid, length⟩ := reached.points (bits * 0x40 + byte.toNat % 0x40) byte bounded.1
    bounded.2 (Nat.div_one _)
  dsimp only [Nat.add_zero] at length
  have whole : part = bytesOf (leadMark (earlier + 1)) earlier bits := reached.bytes
  rw [encodeChar_eq_bytesOf, toNat_ofNat_of_isValidChar valid, length, bytesOf, front, last, whole]

end Continuing

theorem BeginsCharacter.of_append
    {part behind : Bytes}
    (begins : BeginsCharacter (part ++ behind)) :
    BeginsCharacter part := by
  obtain ⟨char, whole⟩ := begins
  exact ⟨char, (List.prefix_append part behind).trans whole⟩

theorem OpenSequence.Reached.exists_byte
    {sequence : OpenSequence}
    {earlier : Nat}
    {part : Bytes}
    (reached : sequence.Reached earlier part) :
    ∃ byte : UInt8, sequence.low ≤ byte.toNat ∧ byte.toNat ≤ sequence.high := by
  have ordered := reached.ordered
  have most : sequence.high < 0xC0 := reached.awaits.2
  refine ⟨UInt8.ofNat sequence.low, ?_⟩
  rw [UInt8.toNat_ofNat_of_lt' (show sequence.low < 0x100 by omega)]
  exact ⟨Nat.le_refl _, ordered⟩

/-- As long as a sequence is open, its bytes are the first ones of some character. -/
theorem OpenSequence.Reached.beginsCharacter
    {sequence : OpenSequence}
    {earlier : Nat}
    {part : Bytes}
    (reached : sequence.Reached earlier part) :
    BeginsCharacter part := by
  obtain ⟨later, low, high, bits⟩ := sequence
  induction later generalizing low high bits earlier part with
  | zero =>
      obtain ⟨byte, bounded⟩ := reached.exists_byte
      exact ⟨_, reached.last bounded ▸ List.prefix_append part [byte]⟩
  | succ later ih =>
      obtain ⟨byte, bounded⟩ := reached.exists_byte
      exact (ih _ _ _ (reached.next bounded)).of_append

/-! ## Invalid parts in the decoder -/

/-- Bytes whose first unit is an invalid part begin with no character. -/
theorem not_prefix_of_unitsFrom
    {bytes : Bytes}
    {units : List Decoded}
    (decoded : unitsFrom none bytes = none :: units)
    (char : Char) :
    ¬encodeChar char <+: bytes := by
  rintro ⟨rest, rfl⟩
  rw [unitsFrom_encodeChar] at decoded
  injection decoded with head
  cases head

/-- Bytes whose first unit is an invalid part, whatever follows them, begin no character. -/
theorem not_beginsCharacter_of_unitsFrom
    {part : Bytes}
    (decoded : ∀ rest, ∃ units, unitsFrom none (part ++ rest) = none :: units) :
    ¬BeginsCharacter part := by
  rintro ⟨char, rest, whole⟩
  obtain ⟨units, decoded⟩ := decoded rest
  exact not_prefix_of_unitsFrom decoded char (whole ▸ List.prefix_rfl)

theorem unitsFrom_of_invalid
    {byte : UInt8}
    (invalid : firstByte byte = .invalid)
    (rest : Bytes) :
    unitsFrom none (byte :: rest) = none :: unitsFrom none rest := by
  rw [unitsFrom, readByte, beginSequence, invalid]
  rfl

theorem invalidPart_of_firstByte
    {byte : UInt8}
    (invalid : firstByte byte = .invalid)
    (rest : Bytes) :
    InvalidPart [byte] rest := by
  have decoded : ∀ rest, unitsFrom none ([byte] ++ rest) = none :: unitsFrom none rest :=
    unitsFrom_of_invalid invalid
  refine ⟨not_prefix_of_unitsFrom (decoded rest), by simp, by simp, ?_⟩
  intro next behind _ begins
  exact not_beginsCharacter_of_unitsFrom (fun rest => ⟨_, decoded rest⟩) begins.of_append

/-- The bytes of a sequence that is not continued are an invalid part. -/
theorem OpenSequence.Reached.invalidPart
    {sequence : OpenSequence}
    {earlier : Nat}
    {part rest : Bytes}
    (reached : sequence.Reached earlier part)
    (closed : ∀ byte behind, rest = byte :: behind →
      ¬(sequence.low ≤ byte.toNat ∧ byte.toNat ≤ sequence.high)) :
    InvalidPart part rest := by
  have decoded : ∃ units, unitsFrom none (part ++ rest) = none :: units := by
    rw [reached.read]
    cases rest with
    | nil => exact ⟨[], rfl⟩
    | cons byte behind => exact ⟨_, unitsFrom_outside (closed byte behind rfl) behind⟩
  obtain ⟨units, decoded⟩ := decoded
  refine ⟨not_prefix_of_unitsFrom decoded, fun _ => reached.beginsCharacter, ?_, ?_⟩
  · rintro rfl
    have nothing : unitsFrom (some sequence) [] = [] := (reached.read []).symm
    simp [unitsFrom] at nothing
  · rintro byte behind rfl
    refine not_beginsCharacter_of_unitsFrom fun other => ⟨unitsFrom none (byte :: other), ?_⟩
    rw [List.append_assoc, reached.read]
    exact unitsFrom_outside (closed byte behind rfl) other

/-! ## Taking bytes apart -/

/-- The decoder takes bytes apart into characters and invalid parts. -/
theorem consistsOf_unitsFrom (bytes : Bytes) :
    ConsistsOf bytes (unitsFrom none bytes) ∧
      ∀ sequence earlier part, OpenSequence.Reached sequence earlier part →
        ConsistsOf (part ++ bytes) (unitsFrom (some sequence) bytes) := by
  -- Behind a byte that closes a sequence the same bytes are read again, now between characters.
  induction bytes with
  | nil =>
      refine ⟨.nothing, fun sequence earlier part reached => ?_⟩
      exact .invalid (reached.invalidPart (by simp)) .nothing
  | cons byte bytes ih =>
      obtain ⟨between, inside⟩ := ih
      have begun : ConsistsOf (byte :: bytes) (unitsFrom none (byte :: bytes)) := by
        cases first : firstByte byte with
        | whole char =>
            have whole : byte :: bytes = encodeChar char ++ bytes := by
              rw [encodeChar_of_firstByte first, List.singleton_append]
            rw [whole, unitsFrom_encodeChar]
            exact .char char between
        | opens sequence =>
            rw [unitsFrom_of_opens first]
            exact inside sequence 0 [byte] (reached_of_firstByte first)
        | invalid =>
            rw [unitsFrom_of_invalid first]
            exact .invalid (invalidPart_of_firstByte first bytes) between
      refine ⟨begun, ?_⟩
      rintro ⟨later, low, high, bits⟩ earlier part reached
      by_cases bounded : low ≤ byte.toNat ∧ byte.toNat ≤ high
      · cases later with
        | zero =>
            rw [unitsFrom_last bounded, List.append_cons, ← reached.last bounded]
            exact .char _ between
        | succ later =>
            rw [unitsFrom_inside bounded, List.append_cons]
            exact inside _ _ _ (reached.next bounded)
      · rw [unitsFrom_outside bounded]
        refine .invalid (reached.invalidPart ?_) begun
        intro next behind same
        injection same with same
        rwa [← same]

/-- An invalid part does not go on behind another one at the same place. -/
theorem InvalidPart.eq_nil
    {part gap behind : Bytes}
    (first : InvalidPart part (gap ++ behind))
    (second : InvalidPart (part ++ gap) behind) :
    gap = [] := by
  cases gap with
  | nil => rfl
  | cons byte gap =>
      have several : 1 < (part ++ byte :: gap).length := by
        have filled := List.length_pos_iff.mpr first.nonempty
        rw [List.length_append, List.length_cons]
        omega
      have begins : BeginsCharacter ((part ++ [byte]) ++ gap) := by
        simpa using second.begins several
      exact absurd begins.of_append (first.longest byte (gap ++ behind) rfl)

theorem InvalidPart.unique
    {part rest other behind : Bytes}
    (first : InvalidPart part rest)
    (second : InvalidPart other behind)
    (same : part ++ rest = other ++ behind) :
    other = part := by
  rcases List.append_eq_append_iff.mp same with ⟨gap, rfl, rfl⟩ | ⟨gap, rfl, rfl⟩
  · rw [first.eq_nil second, List.append_nil]
  · rw [second.eq_nil first, List.append_nil]

/-- Two characters whose encodings begin the same bytes are the same. -/
theorem eq_of_encodeChar_append
    {char other : Char}
    {rest behind : Bytes}
    (same : encodeChar char ++ rest = encodeChar other ++ behind) :
    other = char := by
  have decoded := congrArg (unitsFrom none) same
  rw [unitsFrom_encodeChar, unitsFrom_encodeChar] at decoded
  injection decoded with head
  injection head with head
  exact head.symm

theorem encodeChar_ne_nil (char : Char) : encodeChar char ≠ [] := by
  obtain ⟨rest, whole⟩ := exists_encodeChar_eq_cons char
  simp [whole]

/-- There is one way to take bytes apart. -/
theorem ConsistsOf.unique
    {bytes : Bytes}
    {units other : List Decoded}
    (first : ConsistsOf bytes units)
    (second : ConsistsOf bytes other) :
    other = units := by
  induction first generalizing other with
  | nothing =>
      rcases (consistsOf_iff ..).mp second with ⟨-, rfl⟩ | ⟨again, _, _, -, none, -⟩ |
        ⟨_, _, _, again, -, none, -⟩
      · rfl
      · exact absurd (List.append_eq_nil_iff.mp none.symm).1 (encodeChar_ne_nil again)
      · exact absurd (List.append_eq_nil_iff.mp none.symm).1 again.nonempty
  | @char char rest units _ ih =>
      rcases (consistsOf_iff ..).mp second with ⟨none, -⟩ | ⟨again, behind, _, later, same, rfl⟩ |
        ⟨_, _, _, part, -, same, -⟩
      · exact absurd (List.append_eq_nil_iff.mp none).1 (encodeChar_ne_nil char)
      · obtain rfl := eq_of_encodeChar_append same
        rw [← List.append_cancel_left same] at later
        rw [ih later]
      · exact absurd (same ▸ List.prefix_append (encodeChar char) rest) (part.noCharacter char)
  | @invalid part rest units invalid _ ih =>
      rcases (consistsOf_iff ..).mp second with ⟨none, -⟩ | ⟨char, behind, _, -, same, -⟩ |
        ⟨again, behind, _, part, later, same, rfl⟩
      · exact absurd (List.append_eq_nil_iff.mp none).1 invalid.nonempty
      · exact absurd (same ▸ List.prefix_append (encodeChar char) behind)
          (invalid.noCharacter char)
      · obtain rfl := invalid.unique part same
        rw [← List.append_cancel_left same] at later
        rw [ih later]

/-- Bytes consist of the units that the decoder finds and of no others. -/
theorem consistsOf_iff_eq_units
    {bytes : Bytes}
    {result : List Decoded} :
    ConsistsOf bytes result ↔ result = units bytes := by
  constructor
  · exact (consistsOf_unitsFrom bytes).1.unique
  · rintro rfl
    exact (consistsOf_unitsFrom bytes).1

/-! ## Strict decoding -/

/-- All units are characters exactly if they are those of a text. -/
theorem mapM_id_eq_some_iff
    {all : List Decoded}
    {text : Text} :
    all.mapM id = some text ↔ all = text.map some := by
  induction all generalizing text with
  | nil => cases text <;> simp
  | cons unit all ih =>
      cases unit with
      | none => cases text <;> simp
      | some char => cases text <;> simp [Option.bind_eq_some_iff, ih, and_left_comm]

theorem ConsistsOf.eq_encode
    {bytes : Bytes}
    {text : Text}
    (consists : ConsistsOf bytes (text.map some)) :
    bytes = encode text := by
  induction text generalizing bytes with
  | nil => cases consists; rfl
  | cons char text ih =>
      cases consists with
      | char _ later =>
          rw [ih later]
          rfl

/-- The strict decoder reads the encodings of texts and nothing else. -/
theorem decode?_eq_some_iff
    {bytes : Bytes}
    {text : Text} :
    decode? bytes = some text ↔ bytes = encode text := by
  rw [decode?, mapM_id_eq_some_iff]
  constructor
  · intro decoded
    exact ConsistsOf.eq_encode (consistsOf_iff_eq_units.mpr decoded.symm)
  · rintro rfl
    simpa [units, unitsFrom] using unitsFrom_encode text []

end Text
end Phrasebook
