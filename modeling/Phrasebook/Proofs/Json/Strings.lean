import Phrasebook.Json.Printer
import Phrasebook.Json.Reader

/-!
# Strings of JSON

A printed string is read back as its text.  Every character is escaped by itself, so it is enough
that one escaped character in front of any rest is one part of a string, and that the parts denote
the characters.  Only characters below U+0020 are printed as code units, and these are not halves
of a pair.
-/

namespace Phrasebook
namespace Json

theorem hexDigit?_hexDigit : ∀ value < 16, hexDigit? (hexDigit value) = some value := by
  decide

/-- The part of a string that a character is printed as. -/
def pieceOf (char : Char) : Piece :=
  if char.toNat < 0x20 ∧ char ∉ ['\x08', '\x0c', '\n', '\x0d', '\t'] then
    .codeUnit char.toNat
  else
    .char char

/-- A character has a short escape, or is printed as a code unit, or stands for itself. -/
theorem escape_cases (char : Char) :
    (∃ letter, shortEscape? letter = some char ∧
        escape char = ['\x5c', letter] ∧ pieceOf char = .char char) ∨
      (char.toNat < 0x20 ∧
        escape char =
          ['\x5c', 'u', '0', '0', hexDigit (char.toNat / 16), hexDigit (char.toNat % 16)] ∧
        pieceOf char = .codeUnit char.toNat) ∨
      (char ≠ '\x22' ∧ char ≠ '\x5c' ∧ 0x20 ≤ char.toNat ∧
        escape char = [char] ∧ pieceOf char = .char char) := by
  by_cases named : char ∈ ['\x22', '\x5c', '\x08', '\x0c', '\n', '\x0d', '\t']
  · left
    simp only [List.mem_cons, List.not_mem_nil, or_false] at named
    rcases named with rfl | rfl | rfl | rfl | rfl | rfl | rfl <;> exact ⟨_, rfl, rfl, rfl⟩
  · right
    simp only [List.mem_cons, List.not_mem_nil, or_false, not_or] at named
    obtain ⟨quote, slash, back, feed, line, carriage, tab⟩ := named
    by_cases control : char.toNat < 0x20
    · left
      refine ⟨control, ?_, ?_⟩
      · simp only [escape, quote, slash, back, feed, line, carriage, tab, control, if_false,
          if_true]
      · simp [pieceOf, control, back, feed, line, carriage, tab]
    · right
      refine ⟨quote, slash, by omega, ?_, ?_⟩
      · simp only [escape, quote, slash, back, feed, line, carriage, tab, control, if_false]
      · simp [pieceOf, control]

theorem pieces?_short
    {char letter : Char}
    (escaped : shortEscape? letter = some char)
    (rest : Text) :
    pieces? ('\x5c' :: letter :: rest) = consPiece (.char char) (pieces? rest) := by
  have other : letter ≠ 'u' := by
    rintro rfl
    exact absurd escaped (by simp [shortEscape?])
  rw [pieces?]
  · simp [escaped]
  · intro _ _ _ _ _ same
    exact absurd same other

theorem pieces?_codeUnit
    {value : Nat}
    (small : value < 0x100)
    (rest : Text) :
    pieces?
        ('\x5c' :: 'u' :: '0' :: '0' :: hexDigit (value / 16) :: hexDigit (value % 16) :: rest) =
      consPiece (.codeUnit value) (pieces? rest) := by
  have zero : hexDigit? '0' = some 0 := by decide
  have high := hexDigit?_hexDigit (value / 16) (by omega)
  have low := hexDigit?_hexDigit (value % 16) (by omega)
  have whole : value / 16 * 16 + value % 16 = value := by omega
  rw [pieces?]
  simp [zero, high, low, whole]

theorem pieces?_plain
    {char : Char}
    (noQuote : char ≠ '\x22')
    (noSlash : char ≠ '\x5c')
    (printable : 0x20 ≤ char.toNat)
    (rest : Text) :
    pieces? (char :: rest) = consPiece (.char char) (pieces? rest) := by
  have noControl : ¬char.toNat < 0x20 := by omega
  rw [pieces?.eq_def]
  simp only [noQuote, noSlash, noControl, if_false]

theorem pieces?_escape (char : Char) (rest : Text) :
    pieces? (escape char ++ rest) = consPiece (pieceOf char) (pieces? rest) := by
  rcases escape_cases char with ⟨letter, escaped, written, piece⟩ | ⟨control, written, piece⟩ |
    ⟨noQuote, noSlash, printable, written, piece⟩
  · rw [written, piece]
    exact pieces?_short escaped rest
  · rw [written, piece]
    exact pieces?_codeUnit (by omega) rest
  · rw [written, piece]
    exact pieces?_plain noQuote noSlash printable rest

theorem pieces?_flatMap_escape (text rest : Text) :
    pieces? (text.flatMap escape ++ '\x22' :: rest) = some (text.map pieceOf, rest) := by
  induction text with
  | nil =>
      rw [List.flatMap_nil, List.nil_append, pieces?.eq_def]
      rfl
  | cons char text ih =>
      rw [List.flatMap_cons, List.append_assoc, pieces?_escape, ih]
      rfl

theorem text?_cons_pieceOf (char : Char) (pieces : List Piece) :
    text? (pieceOf char :: pieces) = (text? pieces).map (char :: ·) := by
  rcases escape_cases char with ⟨_, -, -, piece⟩ | ⟨control, -, piece⟩ | ⟨-, -, -, -, piece⟩
  · rw [piece, text?]
  · have noHigh : isHighSurrogate char.toNat = false := by
      simp only [isHighSurrogate, Bool.and_eq_false_iff, decide_eq_false_iff_not]
      omega
    have noLow : isLowSurrogate char.toNat = false := by
      simp only [isLowSurrogate, Bool.and_eq_false_iff, decide_eq_false_iff_not]
      omega
    rw [piece]
    cases pieces with
    | nil => simp [text?, noHigh, noLow]
    | cons next pieces => simp [text?, noHigh, noLow]
  · rw [piece, text?]

/-- The parts that a text is printed as denote the text. -/
theorem text?_map_pieceOf (text : Text) : text? (text.map pieceOf) = some text := by
  induction text with
  | nil => rfl
  | cons char text ih => rw [List.map_cons, text?_cons_pieceOf, ih, Option.map_some]

theorem token?_quote (text rest : Text) :
    token? (quote text ++ rest) = some (.string (text.map pieceOf), rest) := by
  have written : quote text ++ rest = '\x22' :: (text.flatMap escape ++ '\x22' :: rest) := by
    simp [quote]
  rw [written, token?, pieces?_flatMap_escape, Option.map_some]

end Json
end Phrasebook
