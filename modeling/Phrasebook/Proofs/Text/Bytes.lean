import Phrasebook.Proofs.Path
import Phrasebook.Proofs.Text.InvalidParts

/-!
# Texts as bytes

A name is often written as a text.  Its slashes and dots are bytes of their own, and no other
character has such a byte in its encoding; so the text and its bytes have the same slashes and dots,
and a name is hidden as a text or not at all.
-/

namespace Phrasebook
namespace Text

/-! ## Encodings -/

@[simp]
theorem decode?_encode (text : Text) : decode? (encode text) = some text :=
  decode?_eq_some_iff.mpr rfl

theorem encode_injective : Function.Injective encode := fun first second same =>
  Option.some.inj (by rw [← decode?_encode first, same, decode?_encode])

@[simp]
theorem encode_inj {first second : Text} : encode first = encode second ↔ first = second :=
  encode_injective.eq_iff

@[simp]
theorem encode_eq_nil_iff {text : Text} : encode text = [] ↔ text = [] := by
  rw [← encode_inj, show encode [] = [] from rfl]

/-- A text without an end has other bytes than any text with it. -/
theorem encode_ne_of_not_suffix
    {whole behind : Text}
    (apart : ¬behind <:+ whole)
    (front : Text) :
    encode whole ≠ encode (front ++ behind) := fun same =>
  apart ⟨front, (encode_injective same).symm⟩

/-! ## Bytes that are characters -/

/-- The byte is the encoding of the character. -/
structure StandsFor (byte : UInt8) (char : Char) : Prop where
  sameNumber : byte.toNat = char.toNat
  below : byte.toNat < 0x80

theorem standsFor_slash : StandsFor Path.slash '/' :=
  ⟨rfl, by decide⟩

theorem standsFor_dot : StandsFor Path.dot '.' :=
  ⟨rfl, by decide⟩

section Separators

variable {byte : UInt8} {char : Char} (stands : StandsFor byte char)

include stands

/-- No other character has the byte in its encoding. -/
theorem StandsFor.mem_encodeChar_iff {other : Char} : byte ∈ encodeChar other ↔ other = char := by
  obtain ⟨sameNumber, below⟩ := stands
  have byNumber : other = char ↔ other.toNat = char.toNat := by
    rw [← Char.toNat_inj]
  rw [byNumber]
  rcases encodeChar_cases other with ⟨first, whole, -, first_eq⟩ |
    ⟨first, second, whole, large, first_eq, second_eq, -⟩ |
    ⟨first, second, third, whole, large, first_eq, second_eq, third_eq, -⟩ |
    ⟨first, second, third, fourth, whole, large, first_eq, second_eq, third_eq, fourth_eq⟩
  all_goals
    simp only [whole, List.mem_cons, List.not_mem_nil, or_false, ← UInt8.toNat_inj]
    omega

theorem StandsFor.encodeChar_eq : encodeChar char = [byte] := by
  have inside : byte ∈ encodeChar char := stands.mem_encodeChar_iff.mpr rfl
  rcases encodeChar_cases char with ⟨first, whole, -⟩ | ⟨_, _, -, large, -⟩ |
    ⟨_, _, _, -, large, -⟩ | ⟨_, _, _, _, -, large, -⟩
  · rw [whole, List.mem_singleton] at inside
    rw [whole, inside]
  all_goals
    have := stands.sameNumber
    have := stands.below
    omega

theorem StandsFor.encode_cons (text : Text) : encode (char :: text) = byte :: encode text := by
  rw [encode, List.flatMap_cons, stands.encodeChar_eq]
  rfl

theorem StandsFor.mem_encode_iff {text : Text} : byte ∈ encode text ↔ char ∈ text := by
  simp [encode, stands.mem_encodeChar_iff]

/-- A text begins with the character exactly if its bytes begin with the byte. -/
theorem StandsFor.head?_encode_eq_iff {text : Text} :
    (encode text).head? = some byte ↔ text.head? = some char := by
  cases text with
  | nil => simp [encode]
  | cons next text =>
      rw [List.head?_cons, Option.some.injEq]
      refine ⟨fun begins => ?_, fun same => by rw [same, stands.encode_cons, List.head?_cons]⟩
      obtain ⟨lead, behind, whole⟩ := List.exists_cons_of_ne_nil (encodeChar_ne_nil next)
      rw [encode, List.flatMap_cons, whole, List.cons_append, List.head?_cons,
        Option.some.injEq] at begins
      exact stands.mem_encodeChar_iff.mp (by rw [whole, begins]; exact List.mem_cons_self)

end Separators

end Text

namespace Path

open Text

/-! ## Names -/

@[simp]
theorem isHidden_encode (name : Text) : isHidden (encode name) = isHiddenName name := by
  rw [isHidden, decode?_encode]

/-- Only a text that begins with a dot is a hidden name. -/
theorem isHidden_eq_true_iff {name : Bytes} :
    isHidden name = true ↔ ∃ rest, name = encode ('.' :: rest) := by
  constructor
  · intro hidden
    unfold isHidden at hidden
    split at hidden
    next => cases hidden
    next text decoded =>
      obtain ⟨rest, rfl⟩ := List.head?_eq_some_iff.mp (of_decide_eq_true hidden)
      exact ⟨rest, decode?_eq_some_iff.mp decoded⟩
  · rintro ⟨rest, rfl⟩
    rw [isHidden_encode]
    rfl

theorem textName?_join (base : Path) {name : Bytes} (plain : IsPlainName name) :
    (base.join name).textName? = decode? name := by
  rw [textName?, fileName?_join base plain, Option.bind_some]

/-- The last component of a path is a plain name, if it is a text. -/
theorem isPlainName_of_textName?
    {path : Path}
    {name : Text}
    (named : path.textName? = some name) :
    IsPlainName name := by
  obtain ⟨bytes, named, decoded⟩ := Option.bind_eq_some_iff.mp named
  obtain rfl := decode?_eq_some_iff.mp decoded
  exact isPlainName_of_fileName? named

theorem isPlainName_encode
    {name : Text}
    (nonempty : name ≠ [])
    (notHere : name ≠ ['.'])
    (notUp : name ≠ ['.', '.'])
    (noSlash : '/' ∉ name) :
    IsPlainName (encode name) where
  nonempty := mt encode_eq_nil_iff.mp nonempty
  notHere := fun same => notHere (encode_injective same)
  notUp := fun same => notUp (encode_injective same)
  noSlash := mt standsFor_slash.mem_encode_iff.mp noSlash

/-- The suffix of a path has no slash, if it is a text. -/
theorem noSlash_of_textExtension?
    {path : Path}
    {extension : Text}
    (suffix : path.textExtension? = some extension) :
    '/' ∉ extension := by
  obtain ⟨bytes, suffix, decoded⟩ := Option.bind_eq_some_iff.mp suffix
  obtain rfl := decode?_eq_some_iff.mp decoded
  exact mt standsFor_slash.mem_encode_iff.mpr (noSlash_of_extension? suffix)

end Path
end Phrasebook
