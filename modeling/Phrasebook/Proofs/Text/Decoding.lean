import Phrasebook.Proofs.Text.ByteOrder

/-!
# Decoding among arbitrary bytes

An open sequence waits for a byte that continues it, and such a byte begins no character.  So the
first byte of a character closes whatever sequence is open and is read afresh: what stands in front
of a text, however broken, costs none of its characters, and behind the text the decoder is between
two characters again.
-/

namespace Phrasebook
namespace Text

/-! ## Bytes that close a sequence -/

/-- The next byte of the sequence is one that begins no character. -/
def OpenSequence.AwaitsContinuation (sequence : OpenSequence) : Prop :=
  0x80 ≤ sequence.low ∧ sequence.high < 0xC0

/-- A byte that continues no sequence. -/
def ContinuesNothing (byte : UInt8) : Prop :=
  byte.toNat < 0x80 ∨ 0xC0 ≤ byte.toNat

/-- The bytes that open a sequence of two, three or four bytes. -/
theorem firstByte_eq_opens_iff
    {byte : UInt8}
    {sequence : OpenSequence} :
    firstByte byte = .opens sequence ↔
      (0xC2 ≤ byte.toNat ∧ byte.toNat < 0xE0 ∧
        sequence = ⟨0, 0x80, 0xBF, byte.toNat % 0x20⟩) ∨
      (0xE0 ≤ byte.toNat ∧ byte.toNat < 0xF0 ∧
        sequence = ⟨1, if byte.toNat = 0xE0 then 0xA0 else 0x80,
          if byte.toNat = 0xED then 0x9F else 0xBF, byte.toNat % 0x10⟩) ∨
      (0xF0 ≤ byte.toNat ∧ byte.toNat < 0xF5 ∧
        sequence = ⟨2, if byte.toNat = 0xF0 then 0x90 else 0x80,
          if byte.toNat = 0xF4 then 0x8F else 0xBF, byte.toNat % 0x08⟩) := by
  unfold firstByte
  generalize byte.toNat = value
  dsimp only
  constructor
  · intro opened
    split at opened
    · cases opened
    split at opened
    · cases opened
    split at opened
    · injection opened with same
      exact .inl ⟨by omega, by omega, same.symm⟩
    split at opened
    · injection opened with same
      exact .inr (.inl ⟨by omega, by omega, same.symm⟩)
    split at opened
    · injection opened with same
      exact .inr (.inr ⟨by omega, by omega, same.symm⟩)
    · cases opened
  · rintro (⟨least, below, rfl⟩ | ⟨least, below, rfl⟩ | ⟨least, below, rfl⟩)
    · rw [if_neg (by omega), if_neg (by omega), if_pos below]
    · rw [if_neg (by omega), if_neg (by omega), if_neg (by omega), if_pos below]
    · rw [if_neg (by omega), if_neg (by omega), if_neg (by omega), if_neg (by omega),
        if_pos below]

theorem awaitsContinuation_of_firstByte
    {byte : UInt8}
    {sequence : OpenSequence}
    (opened : firstByte byte = .opens sequence) :
    sequence.AwaitsContinuation := by
  unfold OpenSequence.AwaitsContinuation
  rcases firstByte_eq_opens_iff.mp opened with ⟨-, -, rfl⟩ | ⟨-, -, rfl⟩ | ⟨-, -, rfl⟩
  · simp
  · dsimp only
    constructor <;> split <;> omega
  · dsimp only
    constructor <;> split <;> omega

theorem awaitsContinuation_of_beginSequence
    {byte : UInt8}
    {sequence : OpenSequence}
    (opened : (beginSequence byte).2 = some sequence) :
    sequence.AwaitsContinuation := by
  unfold beginSequence at opened
  split at opened
  · simp at opened
  next begun =>
    simp only [Option.some.injEq] at opened
    exact awaitsContinuation_of_firstByte (opened ▸ begun)
  · simp at opened

/-- Whatever the decoder was in before, behind a byte it waits for a continuation if anything. -/
theorem awaitsContinuation_of_readByte
    {state : Option OpenSequence}
    {byte : UInt8}
    {sequence : OpenSequence}
    (opened : (readByte state byte).2 = some sequence) :
    sequence.AwaitsContinuation := by
  cases state with
  | none => exact awaitsContinuation_of_beginSequence opened
  | some before =>
      rw [readByte] at opened
      split at opened
      · dsimp only at opened
        split at opened
        · simp at opened
        next later _ =>
          simp only [Option.some.injEq] at opened
          subst opened
          simp [OpenSequence.AwaitsContinuation]
      · exact awaitsContinuation_of_beginSequence opened

/-- A byte that continues nothing is out of the bounds of every open sequence. -/
theorem OpenSequence.AwaitsContinuation.outside
    {sequence : OpenSequence}
    {byte : UInt8}
    (awaits : sequence.AwaitsContinuation)
    (closes : ContinuesNothing byte) :
    ¬(sequence.low ≤ byte.toNat ∧ byte.toNat ≤ sequence.high) := by
  unfold OpenSequence.AwaitsContinuation at awaits
  unfold ContinuesNothing at closes
  omega

/-- A byte out of bounds closes the open sequence as an invalid part. -/
theorem unitsFrom_outside
    {sequence : OpenSequence}
    {byte : UInt8}
    (outside : ¬(sequence.low ≤ byte.toNat ∧ byte.toNat ≤ sequence.high))
    (rest : Bytes) :
    unitsFrom (some sequence) (byte :: rest) = none :: unitsFrom none (byte :: rest) := by
  rw [unitsFrom, readByte, if_neg outside, unitsFrom, readByte]
  rfl

/-- The units in front of a byte that continues nothing are those of an input that ends there. -/
theorem unitsFrom_append_cons
    {state : Option OpenSequence}
    {byte : UInt8}
    (awaits : ∀ sequence, state = some sequence → sequence.AwaitsContinuation)
    (closes : ContinuesNothing byte)
    (front rest : Bytes) :
    unitsFrom state (front ++ byte :: rest) =
      unitsFrom state front ++ unitsFrom none (byte :: rest) := by
  induction front generalizing state with
  | nil =>
      cases state with
      | none => rfl
      | some sequence => exact unitsFrom_outside ((awaits sequence rfl).outside closes) rest
  | cons first front ih =>
      have later : ∀ sequence, (readByte state first).2 = some sequence →
          sequence.AwaitsContinuation :=
        fun _ opened => awaitsContinuation_of_readByte opened
      rw [List.cons_append, unitsFrom, ih later, unitsFrom.eq_def state, List.append_assoc]

/-! ## Characters -/

theorem continuesNothing_leadByte (char : Char) :
    ContinuesNothing (UInt8.ofNat (leadByte char.toNat)) := by
  rw [ContinuesNothing, UInt8.toNat_ofNat_of_lt' (leadByte_lt (toNat_lt char))]
  unfold leadByte laterBytes
  repeat' split
  all_goals simp only [leadMark]; omega

/-- The values of the bytes of a character. -/
theorem encodeChar_cases (char : Char) :
    (∃ first, encodeChar char = [first] ∧ char.toNat < 0x80 ∧ first.toNat = char.toNat) ∨
    (∃ first second, encodeChar char = [first, second] ∧ 0x80 ≤ char.toNat ∧
      first.toNat = 0xC0 + char.toNat / 0x40 ∧ second.toNat = 0x80 + char.toNat % 0x40 ∧
      char.toNat < 0x800) ∨
    (∃ first second third, encodeChar char = [first, second, third] ∧ 0x800 ≤ char.toNat ∧
      first.toNat = 0xE0 + char.toNat / 0x1000 ∧
      second.toNat = 0x80 + char.toNat / 0x40 % 0x40 ∧
      third.toNat = 0x80 + char.toNat % 0x40 ∧ char.toNat < 0x10000) ∨
    (∃ first second third fourth, encodeChar char = [first, second, third, fourth] ∧
      0x10000 ≤ char.toNat ∧ first.toNat = 0xF0 + char.toNat / 0x40000 ∧
      second.toNat = 0x80 + char.toNat / 0x1000 % 0x40 ∧
      third.toNat = 0x80 + char.toNat / 0x40 % 0x40 ∧
      fourth.toNat = 0x80 + char.toNat % 0x40) := by
  have bounded := toNat_lt char
  have exact : ∀ value < 0x100, (UInt8.ofNat value).toNat = value :=
    fun _ small => UInt8.toNat_ofNat_of_lt' small
  unfold encodeChar
  generalize char.toNat = point at bounded
  dsimp only
  split
  next single => exact .inl ⟨_, rfl, single, exact _ (by omega)⟩
  split
  next atLeast below =>
    exact .inr (.inl ⟨_, _, rfl, by omega, exact _ (by omega), exact _ (by omega), below⟩)
  split
  next atLeast below =>
    exact .inr (.inr (.inl ⟨_, _, _, rfl, by omega, exact _ (by omega), exact _ (by omega),
      exact _ (by omega), below⟩))
  next atLeast =>
    exact .inr (.inr (.inr ⟨_, _, _, _, rfl, by omega, exact _ (by omega), exact _ (by omega),
      exact _ (by omega), exact _ (by omega)⟩))

section Sequences

variable {byte : UInt8} {rest : Bytes} {low high bits later : Nat}

theorem unitsFrom_of_opens
    {sequence : OpenSequence}
    (opened : firstByte byte = .opens sequence) :
    unitsFrom none (byte :: rest) = unitsFrom (some sequence) rest := by
  rw [unitsFrom, readByte, beginSequence, opened]
  rfl

/-- A byte within the bounds of a sequence adds its bits, and another byte is owed. -/
theorem unitsFrom_inside
    (bounded : low ≤ byte.toNat ∧ byte.toNat ≤ high) :
    unitsFrom (some ⟨later + 1, low, high, bits⟩) (byte :: rest) =
      unitsFrom (some ⟨later, 0x80, 0xBF, bits * 0x40 + byte.toNat % 0x40⟩) rest := by
  rw [unitsFrom, readByte, if_pos bounded]
  rfl

/-- The last byte of a sequence completes its character. -/
theorem unitsFrom_last
    (bounded : low ≤ byte.toNat ∧ byte.toNat ≤ high) :
    unitsFrom (some ⟨0, low, high, bits⟩) (byte :: rest) =
      some (Char.ofNat (bits * 0x40 + byte.toNat % 0x40)) :: unitsFrom none rest := by
  rw [unitsFrom, readByte, if_pos bounded]
  rfl

end Sequences

/-- An encoded character is decoded to itself when the decoder is between two characters. -/
theorem unitsFrom_encodeChar
    (char : Char)
    (rest : Bytes) :
    unitsFrom none (encodeChar char ++ rest) = some char :: unitsFrom none rest := by
  have valid : char.toNat < 0xD800 ∨ 0xDFFF < char.toNat ∧ char.toNat < 0x110000 := char.valid
  have whole : Char.ofNat char.toNat = char := Char.ofNat_toNat char
  obtain ⟨first, bytes, single, value⟩ | ⟨first, second, bytes, least, lead, last, most⟩ |
    ⟨first, second, third, bytes, least, lead, middle, last, most⟩ |
    ⟨first, second, third, fourth, bytes, least, lead, inner, middle, last⟩ :=
      encodeChar_cases char
  · have begun : firstByte first = .whole char := by
      rw [firstByte, value, if_pos single, whole]
    rw [bytes, List.singleton_append, unitsFrom, readByte, beginSequence, begun]
    rfl
  · have spelled : first.toNat % 0x20 * 0x40 + second.toNat % 0x40 = char.toNat := by omega
    have opened : firstByte first = .opens _ :=
      firstByte_eq_opens_iff.mpr (.inl ⟨by omega, by omega, rfl⟩)
    rw [bytes, List.cons_append, List.singleton_append, unitsFrom_of_opens opened,
      unitsFrom_last ⟨by omega, by omega⟩, spelled, whole]
  · have spelled : (first.toNat % 0x10 * 0x40 + second.toNat % 0x40) * 0x40 +
        third.toNat % 0x40 = char.toNat := by
      omega
    have opened : firstByte first = .opens _ :=
      firstByte_eq_opens_iff.mpr (.inr (.inl ⟨by omega, by omega, rfl⟩))
    have inside : (if first.toNat = 0xE0 then 0xA0 else 0x80) ≤ second.toNat ∧
        second.toNat ≤ if first.toNat = 0xED then 0x9F else 0xBF := by
      constructor <;> split <;> omega
    rw [bytes, List.cons_append, List.cons_append, List.singleton_append,
      unitsFrom_of_opens opened, unitsFrom_inside inside, unitsFrom_last ⟨by omega, by omega⟩,
      spelled, whole]
  · have spelled : ((first.toNat % 0x08 * 0x40 + second.toNat % 0x40) * 0x40 +
        third.toNat % 0x40) * 0x40 + fourth.toNat % 0x40 = char.toNat := by
      omega
    have opened : firstByte first = .opens _ :=
      firstByte_eq_opens_iff.mpr (.inr (.inr ⟨by omega, by omega, rfl⟩))
    have inside : (if first.toNat = 0xF0 then 0x90 else 0x80) ≤ second.toNat ∧
        second.toNat ≤ if first.toNat = 0xF4 then 0x8F else 0xBF := by
      constructor <;> split <;> omega
    rw [bytes, List.cons_append, List.cons_append, List.cons_append, List.singleton_append,
      unitsFrom_of_opens opened, unitsFrom_inside inside, unitsFrom_inside ⟨by omega, by omega⟩,
      unitsFrom_last ⟨by omega, by omega⟩, spelled, whole]

/-! ## Texts -/

theorem unitsFrom_encode
    (text : Text)
    (rest : Bytes) :
    unitsFrom none (encode text ++ rest) = text.map some ++ unitsFrom none rest := by
  induction text with
  | nil => rfl
  | cons char text ih =>
      rw [encode, List.flatMap_cons, List.append_assoc, unitsFrom_encodeChar, List.map_cons,
        List.cons_append]
      exact congrArg (some char :: ·) ih

/-- A text is found whole among bytes, which are decoded as if it were not there. -/
theorem units_append_encode
    {text : Text}
    (nonempty : text ≠ [])
    (front behind : Bytes) :
    units (front ++ encode text ++ behind) = units front ++ text.map some ++ units behind := by
  obtain ⟨char, text, rfl⟩ := List.exists_cons_of_ne_nil nonempty
  obtain ⟨later, lead⟩ := exists_encodeChar_eq_cons char
  have cut := unitsFrom_encode (char :: text) behind
  have begun : encode (char :: text) =
      UInt8.ofNat (leadByte char.toNat) :: (later ++ encode text) := by
    rw [encode, List.flatMap_cons, lead, List.cons_append, encode]
  rw [units, List.append_assoc, units, List.append_assoc, units, ← cut, begun, List.cons_append]
  exact unitsFrom_append_cons (by simp) (continuesNothing_leadByte char) front _

/-- No byte beside a text costs one of its characters, whatever is lost of the bytes. -/
theorem decodeLossy_append_encode
    {text : Text}
    (nonempty : text ≠ [])
    (front behind : Bytes) :
    decodeLossy (front ++ encode text ++ behind) =
      decodeLossy front ++ text ++ decodeLossy behind := by
  have kept : (text.map some).map (fun unit => unit.getD (Char.ofNat 0xFFFD)) = text := by
    rw [List.map_map]
    exact List.map_id text
  rw [decodeLossy, units_append_encode nonempty, List.map_append, List.map_append, kept]
  rfl

end Text
end Phrasebook
