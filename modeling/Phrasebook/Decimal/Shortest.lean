import Phrasebook.Text.Basic

/-!
# Shortest decimals

Every finite binary number of double precision is written with the fewest decimal digits that
still lie closer to it than to any of its neighbours; among equally short decimals the nearest one
is taken.  The search tries one digit, two digits and so on, in exact arithmetic on fractions: on
the grid of decimals with that many digits it looks at the two neighbours of the number.
-/

namespace Phrasebook
namespace Decimal

/-- A positive binary number together with the fractions between which it is the nearest one. -/
structure Neighbourhood where
  /-- The number, as a multiple of the unit. -/
  centre : Nat
  /-- The least fraction that belongs to the number, as a multiple of the unit. -/
  low : Nat
  /-- The greatest fraction that belongs to the number, as a multiple of the unit. -/
  high : Nat
  /-- The two bounds themselves belong to the number. -/
  closed : Bool
  /-- The unit is this number. -/
  unit : Nat
  /-- The unit is divided by this number. -/
  divisor : Nat

/-- A power of two. -/
def powerOfTwo (exponent : Nat) : Nat :=
  1 <<< exponent

/-- A power of ten. -/
def powerOfTen (exponent : Nat) : Nat :=
  Nat.pow 10 exponent

/-- The digits of a decimal number and the power of ten of the last digit. -/
structure Digits where
  /-- The digits, read as a natural number. -/
  digits : Nat
  /-- The power of ten that the last digit counts. -/
  exponent : Int
  deriving DecidableEq

/-- The neighbourhood of `mantissa * 2 ^ exponent`, with the mantissa as it is stored. -/
def Neighbourhood.ofBinary (mantissa : Nat) (exponent : Int) (isLeast : Bool) : Neighbourhood :=
  let below := if mantissa = powerOfTwo 52 ∧ !isLeast then 1 else 2
  { centre := 4 * mantissa
    low := 4 * mantissa - below
    high := 4 * mantissa + 2
    closed := mantissa % 2 = 0
    unit := powerOfTwo (exponent - 2).toNat
    divisor := powerOfTwo (2 - exponent).toNat }

/-- A fraction belongs to the number. -/
def Neighbourhood.contains (around : Neighbourhood) (numerator denominator : Nat) : Bool :=
  let scaled := numerator * around.divisor
  let least := around.low * around.unit * denominator
  let greatest := around.high * around.unit * denominator
  if around.closed then
    least ≤ scaled && scaled ≤ greatest
  else
    least < scaled && scaled < greatest

/-- The greatest power of ten that is not above a positive fraction. -/
def magnitude (numerator denominator : Nat) : Int :=
  let guess : Int := (Text.ofNat numerator).length - (Text.ofNat denominator).length
  if denominator * powerOfTen guess.toNat ≤ numerator * powerOfTen (-guess).toNat then
    guess
  else
    guess - 1

/-- The decimal with the given number of digits that belongs to the number, if there is one. -/
def Neighbourhood.onGrid? (around : Neighbourhood) (count : Nat) : Option Digits :=
  let numerator := around.centre * around.unit
  let exponent := magnitude numerator around.divisor - count + 1
  let up := powerOfTen exponent.toNat
  let down := powerOfTen (-exponent).toNat
  let below := numerator * down / (around.divisor * up)
  let remainder := numerator * down % (around.divisor * up)
  let belongs (digits : Nat) := around.contains (digits * up) down
  let belowIsNearer : Bool :=
    2 * remainder < around.divisor * up ||
      (2 * remainder = around.divisor * up && below % 2 = 0)
  if belongs below && (belowIsNearer || !belongs (below + 1)) then
    some ⟨below, exponent⟩
  else if belongs (below + 1) then
    some ⟨below + 1, exponent⟩
  else
    none

/-- Trailing zeros move into the exponent. -/
def Digits.stripZeros (digits : Digits) : Digits :=
  if _inner : digits.digits ≠ 0 ∧ digits.digits % 10 = 0 then
    stripZeros ⟨digits.digits / 10, digits.exponent + 1⟩
  else
    digits
termination_by digits.digits
decreasing_by
  have smaller := Nat.div_lt_self (Nat.pos_of_ne_zero _inner.1) (by decide : 1 < 10)
  exact smaller

/-- The fewest digits that denote the number; seventeen are always enough. -/
def Neighbourhood.shortest (around : Neighbourhood) : Digits :=
  (((List.range 17).findSome? fun count => around.onGrid? (count + 1)).getD ⟨0, 0⟩).stripZeros

/-- Mantissa and exponent of a positive finite number of double precision, from its bits. -/
def parts (bits : UInt64) : Nat × Int × Bool :=
  let fraction : Nat := bits.toNat % powerOfTwo 52
  let biased : Nat := bits.toNat / powerOfTwo 52 % powerOfTwo 11
  if biased = 0 then
    (fraction, -1074, true)
  else
    (fraction + powerOfTwo 52, (biased : Int) - 1075, biased = 1)

/-- The shortest digits of the positive finite number with the given bits. -/
def shortest (bits : UInt64) : Digits :=
  let (mantissa, exponent, isLeast) := parts bits
  (Neighbourhood.ofBinary mantissa exponent isLeast).shortest

end Decimal
end Phrasebook
