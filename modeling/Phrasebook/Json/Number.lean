import Phrasebook.Decimal.Shortest

/-!
# Numbers in JSON

A number is written with a sign, digits, a fraction and an exponent.  Without fraction and exponent
it denotes an integer, as long as it fits into 64 bits.  Any other number is a binary one of double
precision: its leading digits, as many as fit into 64 bits, are multiplied or divided by a power of
ten.  A number too large for double precision denotes nothing.
-/

namespace Phrasebook
namespace Json

/-- A number the way it is written. -/
structure Numeral where
  /-- There is a minus sign in front. -/
  isNegative : Bool
  /-- The digits in front of the point, at least one. -/
  whole : List Nat
  /-- The digits behind the point. -/
  fraction : List Nat
  /-- The digits of the exponent, and whether a minus sign stands in front of them. -/
  exponent : Option (Bool × List Nat)
  deriving DecidableEq

/-- The number that a numeral denotes. -/
inductive Number where
  /-- An integer that is not negative. -/
  | natural (value : Nat)
  /-- An integer below zero, by its absolute value. -/
  | negative (value : Nat)
  /-- A binary number of double precision, by its bits. -/
  | binary (bits : UInt64)
  deriving DecidableEq

/-- The least number that does not fit into 64 bits. -/
def wordBound : Nat :=
  0x10000000000000000

/-- The value of the highest one of 64 bits. -/
def signBit : Nat :=
  0x8000000000000000

/-- The least exponent that is not read as a number. -/
def exponentBound : Nat :=
  0x80000000

/-- Leading digits that fit into 64 bits, and the digits left over. -/
def leadingDigits (value : Nat) : List Nat → Nat × List Nat
  | [] => (value, [])
  | digit :: rest =>
      if value * 10 + digit < wordBound then
        leadingDigits (value * 10 + digit) rest
      else
        (value, digit :: rest)

/-- The digits read as a natural number. -/
def ofDigits (digits : List Nat) : Nat :=
  digits.foldl (fun value digit => value * 10 + digit) 0

/-- A power of ten in double precision. -/
def powerOfTen (exponent : Nat) : Float :=
  Float.ofScientific 1 false exponent

/-- The number divided by powers of ten until the exponent is within reach; zero stays zero. -/
def divideDown (value : Float) (exponent : Nat) : Float :=
  if 308 < exponent ∧ value != 0 then
    divideDown (value / powerOfTen 308) (exponent - 308)
  else
    value / powerOfTen (min exponent 308)
termination_by exponent

/-- A significand times a power of ten, unless that is too large. -/
def scale? (significand : Nat) (exponent : Int) : Option Float :=
  let value := Float.ofNat significand
  if exponent < 0 then
    some (divideDown value (-exponent).toNat)
  else if 308 < exponent then
    if significand = 0 then some value else none
  else
    let product := value * powerOfTen exponent.toNat
    if product.isInf then none else some product

/-- The bits of a number, with the sign that the numeral has. -/
def Numeral.signed (numeral : Numeral) (value : Float) : Number :=
  .binary (if numeral.isNegative then -value else value).toBits

/-- The significand of a numeral and the power of ten that fraction and cut digits amount to. -/
def Numeral.significand (numeral : Numeral) : Nat × Int :=
  let whole := leadingDigits 0 numeral.whole
  let all := leadingDigits whole.1 numeral.fraction
  (all.1, (whole.2.length : Int) - (numeral.fraction.length - all.2.length))

/-- The binary number that a numeral denotes, unless it is too large. -/
def Numeral.binary? (numeral : Numeral) : Option Number :=
  let value := numeral.significand.1
  let point := numeral.significand.2
  match numeral.exponent with
  | none => (scale? value point).map numeral.signed
  | some (isNegative, digits) =>
      let exponent := ofDigits digits
      if exponent < exponentBound then
        let total := if isNegative then point - exponent else point + exponent
        (scale? value total).map numeral.signed
      else if value ≠ 0 ∧ !isNegative then
        none
      else
        some (numeral.signed 0)

/-- The number that a numeral denotes, unless it is too large. -/
def Numeral.number? (numeral : Numeral) : Option Number :=
  let value := ofDigits numeral.whole
  if numeral.fraction ≠ [] ∨ numeral.exponent.isSome then
    numeral.binary?
  else if numeral.isNegative then
    if 0 < value ∧ value ≤ signBit then some (.negative value) else numeral.binary?
  else if value < wordBound then
    some (.natural value)
  else
    numeral.binary?

/--
The text of a positive binary number: digits and a point where the first digit counts between
`10 ^ -5` and `10 ^ 15`, one digit in front of the point and an exponent elsewhere.
-/
def decimalText (decimal : Decimal.Digits) : Text :=
  let digits := Text.ofNat decimal.digits
  let first : Int := decimal.exponent + digits.length - 1
  if 0 ≤ decimal.exponent ∧ first ≤ 15 then
    digits ++ List.replicate decimal.exponent.toNat '0' ++ ".0".toList
  else if 0 ≤ first ∧ first ≤ 15 then
    digits.take (first.toNat + 1) ++ '.' :: digits.drop (first.toNat + 1)
  else if -5 ≤ first ∧ first < 0 then
    "0.".toList ++ List.replicate (-first - 1).toNat '0' ++ digits
  else
    let point := if digits.length = 1 then [] else '.' :: digits.drop 1
    let sign := if first < 0 then '-' else '+'
    digits.take 1 ++ point ++ 'e' :: sign :: Text.ofNat first.natAbs

/-- The text of a binary number. -/
def binaryText (bits : UInt64) : Text :=
  let sign := if bits.toNat < signBit then [] else ['-']
  let size := UInt64.ofNat (bits.toNat % signBit)
  sign ++ if size = 0 then "0.0".toList else decimalText (Decimal.shortest size)

/-- The text that denotes a number. -/
def Number.text : Number → Text
  | natural value => Text.ofNat value
  | negative value => '-' :: Text.ofNat value
  | binary bits => binaryText bits

end Json
end Phrasebook
