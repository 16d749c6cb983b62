import Phrasebook.Glob.Pattern

/-!
# What patterns stand for

A pattern stands for a text when its tokens stand for the parts of the text, in order.  Since an
asterisk may take any part of the text, trying one part after the other takes a time that grows
exponentially with the number of asterisks.  The answers for all ends of the text at once are found
from the last token to the first in a time proportional to both lengths; the main statement says
that these are the answers.
-/

namespace Phrasebook
namespace Glob

/-- The ends of a text, the whole text first. -/
def suffixes : Text → List Text
  | [] => [[]]
  | char :: rest => (char :: rest) :: suffixes rest

/-- The ends of a text that begin behind a slash. -/
def suffixesBehindSlash : Text → List Text
  | [] => []
  | char :: rest =>
      if char = '/' then rest :: suffixesBehindSlash rest else suffixesBehindSlash rest

/-- A token for one character admits this one. -/
def Token.admits (actual : Char) : Token → Bool
  | char expected => actual = expected
  | anyChar => true
  | within ranges => ranges.any (Range.contains actual)
  | without ranges => !ranges.any (Range.contains actual)
  | anyText => false
  | anyFolders => false

/-- The tokens stand for the text. -/
def isMatch : List Token → Text → Bool
  | [], text => text = []
  | .anyText :: tokens, text => (suffixes text).any fun rest => isMatch tokens rest
  | .anyFolders :: tokens, text =>
      (text :: suffixesBehindSlash text ++ [[]]).any fun rest => isMatch tokens rest
  | _ :: _, [] => false
  | token :: tokens, char :: rest => token.admits char && isMatch tokens rest

/-- For each end of a text, whether a flag of it or of a later end is set. -/
def anyLater : List Bool → List Bool
  | [] => []
  | flag :: flags =>
      let later := anyLater flags
      (flag || later.headD false) :: later

/--
For each end of a text, whether a flag is set of a later end behind a slash or of the empty end.
-/
def anyBehindSlash : Text → List Bool → List Bool
  | [], flags => [flags.headD false]
  | char :: rest, flags =>
      let behind := flags.drop 1
      let later := anyBehindSlash rest behind
      ((char = '/' && behind.headD false) || later.headD false) :: later

/-- For each end of a text: the token admits its first character, and the next flag is set. -/
def anyNext (token : Token) : Text → List Bool → List Bool
  | [], _ => [false]
  | char :: rest, flags =>
      let behind := flags.drop 1
      (token.admits char && behind.headD false) :: anyNext token rest behind

/-- For each end of a text, the whole text first, whether the tokens stand for it. -/
def answers : List Token → Text → List Bool
  | [], text => (suffixes text).map fun rest => rest = []
  | .anyText :: tokens, text => anyLater (answers tokens text)
  | .anyFolders :: tokens, text =>
      let flags := answers tokens text
      List.zipWith or flags (anyBehindSlash text flags)
  | token :: tokens, text => anyNext token text (answers tokens text)

/-- The tokens stand for the text, as the answers say. -/
def accepts (tokens : List Token) (text : Text) : Bool :=
  (answers tokens text).headD false

/-- The first end of a text is the text. -/
theorem head?_suffixes (text : Text) : (suffixes text).head? = some text := by
  cases text <;> rfl

/-- A flag of each end, told for all later ends. -/
theorem anyLater_map (flag : Text → Bool) (text : Text) :
    anyLater ((suffixes text).map flag) =
      (suffixes text).map fun rest => (suffixes rest).any flag := by
  induction text with
  | nil => simp [suffixes, anyLater]
  | cons char rest ih => simp [suffixes, anyLater, ih, head?_suffixes]

/-- A flag of each end, told for the ends behind later slashes and the empty one. -/
theorem anyBehindSlash_map (flag : Text → Bool) (text : Text) :
    anyBehindSlash text ((suffixes text).map flag) =
      (suffixes text).map fun rest => (suffixesBehindSlash rest ++ [[]]).any flag := by
  induction text with
  | nil => simp [suffixes, anyBehindSlash, suffixesBehindSlash]
  | cons char rest ih =>
      by_cases slash : char = '/'
      · simp [suffixes, anyBehindSlash, suffixesBehindSlash, ih, slash, head?_suffixes,
          Bool.or_assoc]
      · simp [suffixes, anyBehindSlash, suffixesBehindSlash, ih, slash, head?_suffixes]

/-- A flag of each end, told for the end in front of it by one character. -/
theorem anyNext_map (token : Token) (flag : Text → Bool) (text : Text) :
    anyNext token text ((suffixes text).map flag) =
      (suffixes text).map fun rest =>
        match rest with
        | [] => false
        | char :: behind => token.admits char && flag behind := by
  induction text with
  | nil => simp [suffixes, anyNext]
  | cons char rest ih => simp [suffixes, anyNext, ih, head?_suffixes]

/-- The answers are those of matching each end by itself. -/
theorem answers_eq (tokens : List Token) (text : Text) :
    answers tokens text = (suffixes text).map (isMatch tokens) := by
  induction tokens with
  | nil => rfl
  | cons token tokens ih =>
      cases token with
      | anyText => simp [answers, ih, anyLater_map, isMatch]
      | anyFolders =>
          simp [answers, ih, anyBehindSlash_map, isMatch, List.zipWith_map, List.zipWith_self]
      | _ =>
          rw [answers, ih, anyNext_map]
          · refine List.map_congr_left fun rest _ => ?_
            cases rest <;> simp [isMatch]
          · simp
          · simp

/-- The answer about a whole text is that of matching. -/
@[simp]
theorem accepts_eq_isMatch (tokens : List Token) (text : Text) :
    accepts tokens text = isMatch tokens text := by
  simp [accepts, answers_eq, head?_suffixes]

end Glob
end Phrasebook
