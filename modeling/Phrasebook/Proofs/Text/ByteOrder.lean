import Mathlib.Algebra.Group.Nat.Defs
import Phrasebook.Dictionary
import Phrasebook.Text.Utf8

/-!
# The order of encodings

Texts are ordered by the code points of their characters, and the bytes of their encodings are in
the same order.  A longer sequence of bytes begins with a greater byte, and sequences of one length
spell their points with the highest bits first; so a greater character is decided on by the first
byte that differs, whatever follows.
-/

namespace Phrasebook
namespace Text

/-! ## Characters as sequences of bytes -/

/-- How many bytes a character has behind its first one. -/
def laterBytes (point : Nat) : Nat :=
  if point < 0x80 then 0 else if point < 0x800 then 1 else if point < 0x10000 then 2 else 3

/-- What the first byte adds to its bits to tell how many bytes follow. -/
def leadMark : Nat → Nat
  | 0 => 0
  | 1 => 0xC0
  | 2 => 0xE0
  | _ => 0xF0

/-- A first byte with the highest bits of a point, and one byte for each six bits below them. -/
def bytesOf (mark : Nat) : Nat → Nat → Bytes
  | 0, point => [UInt8.ofNat (mark + point)]
  | later + 1, point => bytesOf mark later (point / 0x40) ++ [UInt8.ofNat (0x80 + point % 0x40)]

/-- The first byte of the encoding of a point. -/
def leadByte (point : Nat) : Nat :=
  leadMark (laterBytes point) + point / 0x40 ^ laterBytes point

theorem toNat_lt (char : Char) : char.toNat < 0x110000 := by
  have valid := char.valid
  simp only [UInt32.isValidChar, Nat.isValidChar] at valid
  change char.val.toNat < 0x110000
  omega

theorem encodeChar_eq_bytesOf (char : Char) :
    encodeChar char =
      bytesOf (leadMark (laterBytes char.toNat)) (laterBytes char.toNat) char.toNat := by
  unfold encodeChar laterBytes
  dsimp only
  repeat' split
  all_goals simp [bytesOf, leadMark, Nat.div_div_eq_div_mul]

theorem exists_bytesOf_eq_cons (mark later point : Nat) :
    ∃ rest, bytesOf mark later point = UInt8.ofNat (mark + point / 0x40 ^ later) :: rest := by
  induction later generalizing point with
  | zero => exact ⟨[], by simp [bytesOf]⟩
  | succ later ih =>
      obtain ⟨rest, whole⟩ := ih (point / 0x40)
      refine ⟨rest ++ [UInt8.ofNat (0x80 + point % 0x40)], ?_⟩
      rw [bytesOf, whole, Nat.div_div_eq_div_mul, ← Nat.pow_succ', List.cons_append]

/-- An encoding begins with the lead byte of its point. -/
theorem exists_encodeChar_eq_cons (char : Char) :
    ∃ rest, encodeChar char = UInt8.ofNat (leadByte char.toNat) :: rest := by
  rw [encodeChar_eq_bytesOf]
  exact exists_bytesOf_eq_cons _ _ _

/-! ## Orders -/

theorem ofNat_lt_ofNat
    {first second : Nat}
    (less : first < second)
    (small : second < 0x100) :
    UInt8.ofNat first < UInt8.ofNat second := by
  rw [UInt8.lt_iff_toNat_lt, UInt8.toNat_ofNat', UInt8.toNat_ofNat']
  omega

theorem leadByte_lt
    {point : Nat}
    (bounded : point < 0x110000) :
    leadByte point < 0x100 := by
  unfold leadByte laterBytes
  repeat' split
  all_goals simp only [leadMark]; omega

theorem leadByte_lt_leadByte
    {first second : Nat}
    (less : first < second)
    (bounded : second < 0x110000)
    (apart : laterBytes first ≠ laterBytes second) :
    leadByte first < leadByte second := by
  revert apart
  unfold leadByte laterBytes
  repeat' split
  all_goals simp only [leadMark]; omega

/-- Sequences of one length are in the order of their points. -/
theorem bytesOf_append_lt
    {mark later first second : Nat}
    (less : first < second)
    (small : mark + second / 0x40 ^ later < 0x100)
    (rest other : Bytes) :
    bytesOf mark later first ++ rest < bytesOf mark later second ++ other := by
  induction later generalizing first second rest other with
  | zero =>
      have heads : UInt8.ofNat (mark + first) < UInt8.ofNat (mark + second) :=
        ofNat_lt_ofNat (by omega) (by simpa using small)
      exact List.cons_lt_cons_iff.mpr (Or.inl heads)
  | succ later ih =>
      simp only [bytesOf, List.append_assoc]
      by_cases high : first / 0x40 < second / 0x40
      · rw [Nat.pow_succ', ← Nat.div_div_eq_div_mul] at small
        exact ih high small _ _
      · have same : first / 0x40 = second / 0x40 := by omega
        have low : UInt8.ofNat (0x80 + first % 0x40) < UInt8.ofNat (0x80 + second % 0x40) :=
          ofNat_lt_ofNat (by omega) (by omega)
        rw [same]
        exact List.append_left_lt (List.cons_lt_cons_iff.mpr (Or.inl low))

/-- A lesser character has the lesser encoding, whatever follows. -/
theorem encodeChar_append_lt
    {first second : Char}
    (less : first < second)
    (rest other : Bytes) :
    encodeChar first ++ rest < encodeChar second ++ other := by
  have bounded := toNat_lt second
  have points : first.toNat < second.toNat := less
  by_cases same : laterBytes first.toNat = laterBytes second.toNat
  · rw [encodeChar_eq_bytesOf, encodeChar_eq_bytesOf, same]
    exact bytesOf_append_lt points (leadByte_lt bounded) rest other
  · obtain ⟨_, firstWhole⟩ := exists_encodeChar_eq_cons first
    obtain ⟨_, secondWhole⟩ := exists_encodeChar_eq_cons second
    have heads := ofNat_lt_ofNat (leadByte_lt_leadByte points bounded same) (leadByte_lt bounded)
    rw [firstWhole, secondWhole]
    exact List.cons_lt_cons_iff.mpr (Or.inl heads)

theorem encode_lt_encode
    {first second : Text}
    (less : first < second) :
    encode first < encode second := by
  induction less with
  | @nil char rest =>
      obtain ⟨_, whole⟩ := exists_encodeChar_eq_cons char
      rw [encode, encode, List.flatMap_cons, whole]
      exact .nil
  | rel less => exact encodeChar_append_lt less _ _
  | cons _ ih => exact List.append_left_lt ih

/-- Texts are in the order of their bytes. -/
theorem encode_lt_encode_iff {first second : Text} :
    encode first < encode second ↔ first < second := by
  constructor
  · intro less
    rcases KeyOrder.trichotomy first second with before | same | behind
    · exact before
    · rw [same] at less
      exact absurd less (List.lt_irrefl _)
    · exact absurd less (List.lt_asymm (encode_lt_encode behind))
  · exact encode_lt_encode

end Text
end Phrasebook
