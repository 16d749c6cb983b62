import Phrasebook.Text.Basic

/-!
# UTF-8

A text is stored as the UTF-8 encoding of its characters.  The decoder reads one byte at a time;
between characters it owes nothing, and inside one it knows how many bytes are owed and within
which bounds the next one must lie.  A byte out of bounds, or the end of the input, closes the
open sequence as one invalid part, and the byte is then read afresh.  Decoding is strict when an
invalid part is refused and lossy when it is replaced by U+FFFD.
-/

namespace Phrasebook

/-- What a file holds, and what a file is called. -/
abbrev Bytes : Type :=
  List UInt8

namespace Text

/-- The UTF-8 encoding of one character. -/
def encodeChar (char : Char) : Bytes :=
  let point := char.toNat
  if point < 0x80 then
    [UInt8.ofNat point]
  else if point < 0x800 then
    [UInt8.ofNat (0xC0 + point / 0x40), UInt8.ofNat (0x80 + point % 0x40)]
  else if point < 0x10000 then
    [UInt8.ofNat (0xE0 + point / 0x1000), UInt8.ofNat (0x80 + point / 0x40 % 0x40),
      UInt8.ofNat (0x80 + point % 0x40)]
  else
    [UInt8.ofNat (0xF0 + point / 0x40000), UInt8.ofNat (0x80 + point / 0x1000 % 0x40),
      UInt8.ofNat (0x80 + point / 0x40 % 0x40), UInt8.ofNat (0x80 + point % 0x40)]

/-- The UTF-8 encoding of a text. -/
def encode (text : Text) : Bytes :=
  text.flatMap encodeChar

/-- The number of bytes that a text takes up. -/
def byteLength (text : Text) : Nat :=
  (encode text).length

/-- An open multi-byte sequence: the bytes owed, the bounds of the next one, the bits so far. -/
structure OpenSequence where
  /-- How many bytes are missing after the next one. -/
  later : Nat
  /-- The least value of the next byte. -/
  low : Nat
  /-- The greatest value of the next byte. -/
  high : Nat
  /-- The bits of the bytes already read. -/
  bits : Nat

/-- What a first byte means: a whole character, the beginning of a sequence, or nothing. -/
inductive FirstByte where
  /-- A character of one byte. -/
  | whole (char : Char)
  /-- The first byte of a sequence. -/
  | opens (sequence : OpenSequence)
  /-- A byte that begins no character. -/
  | invalid

/-- The meaning of a byte between characters. -/
def firstByte (byte : UInt8) : FirstByte :=
  let value := byte.toNat
  if value < 0x80 then
    .whole (Char.ofNat value)
  else if value < 0xC2 then
    .invalid
  else if value < 0xE0 then
    .opens ⟨0, 0x80, 0xBF, value % 0x20⟩
  else if value < 0xF0 then
    .opens ⟨1, if value = 0xE0 then 0xA0 else 0x80, if value = 0xED then 0x9F else 0xBF,
      value % 0x10⟩
  else if value < 0xF5 then
    .opens ⟨2, if value = 0xF0 then 0x90 else 0x80, if value = 0xF4 then 0x8F else 0xBF,
      value % 0x08⟩
  else
    .invalid

/-- A character, or an invalid part as long as possible. -/
abbrev Decoded : Type :=
  Option Char

/-- The state of the decoder and the units that a byte completes when it is read afresh. -/
def beginSequence (byte : UInt8) : List Decoded × Option OpenSequence :=
  match firstByte byte with
  | .whole char => ([some char], none)
  | .opens sequence => ([], some sequence)
  | .invalid => ([none], none)

/-- The units that a byte completes, and the state behind it. -/
def readByte
    (state : Option OpenSequence)
    (byte : UInt8) :
    List Decoded × Option OpenSequence :=
  match state with
  | none => beginSequence byte
  | some sequence =>
      if sequence.low ≤ byte.toNat ∧ byte.toNat ≤ sequence.high then
        let bits := sequence.bits * 0x40 + byte.toNat % 0x40
        match sequence.later with
        | 0 => ([some (Char.ofNat bits)], none)
        | later + 1 => ([], some ⟨later, 0x80, 0xBF, bits⟩)
      else
        let begun := beginSequence byte
        (none :: begun.1, begun.2)

/-- The units of the bytes that follow a state of the decoder. -/
def unitsFrom (state : Option OpenSequence) : Bytes → List Decoded
  | [] => if state.isSome then [none] else []
  | byte :: rest =>
      let read := readByte state byte
      read.1 ++ unitsFrom read.2 rest

/-- The characters and invalid parts that bytes consist of. -/
def units (bytes : Bytes) : List Decoded :=
  unitsFrom none bytes

/-- The text that bytes encode, unless some part of them is invalid. -/
def decode? (bytes : Bytes) : Option Text :=
  (units bytes).mapM id

/-- The text that bytes encode, with U+FFFD in the place of every invalid part. -/
def decodeLossy (bytes : Bytes) : Text :=
  (units bytes).map fun unit => unit.getD (Char.ofNat 0xFFFD)

/-- The encoding of a text is the encodings of its parts in order. -/
@[simp]
theorem encode_append (front rest : Text) : encode (front ++ rest) = encode front ++ encode rest :=
  List.flatMap_append

/-- Lengths in bytes add up. -/
@[simp]
theorem byteLength_append (front rest : Text) :
    byteLength (front ++ rest) = byteLength front + byteLength rest := by
  simp [byteLength]

/-- Where bytes are wanted, a text stands for its encoding. -/
instance : Coe Text Bytes :=
  ⟨encode⟩

end Text
end Phrasebook
