import Reckoner.Number.Binary

set_option autoImplicit false

/-!
Decimal fractions, and the shortest one that reads back as a given double.

Reading rounds to the nearest double. Writing tries one digit, then two, and so on: with a given
number of digits only the two neighbours of the value on that decimal grid can read back as it, and
of these the nearer is preferred.
-/

namespace Reckoner

/-- The fraction `coefficient * 10 ^ exponent`. -/
structure Decimal where
  coefficient : Nat
  exponent : Int
deriving DecidableEq

def tenTo (n : Nat) : Nat := Nat.pow 10 n

namespace Decimal

/-- The double nearest to the fraction. An exponent that puts the fraction out of the range of
doubles, on either side, is answered before its power of ten is computed. -/
def toFloat (d : Decimal) : Float :=
  if d.coefficient = 0 then
    Float.ofBits 0
  else if 400 < d.exponent then
    Number.infinity
  else if d.exponent < -(400 + d.coefficient.log2 : Int) then
    Float.ofBits 0
  else
    Number.nearest (d.coefficient * tenTo d.exponent.toNat) (tenTo (-d.exponent).toNat)

def digits (d : Decimal) : List Char :=
  Nat.toDigits 10 d.coefficient

def leadingExponent (d : Decimal) : Int :=
  d.digits.length - 1 + d.exponent

/-- The same fraction without zeros at the end of the coefficient. -/
def trim (d : Decimal) : Decimal :=
  if d.coefficient = 0 then
    d
  else if d.coefficient % 10 = 0 then
    trim ⟨d.coefficient / 10, d.exponent + 1⟩
  else
    d
termination_by d.coefficient
decreasing_by omega

end Decimal

namespace Number

/-- The exponent `k` with `10 ^ k ≤ num / den < 10 ^ (k + 1)`, for a positive fraction. -/
def decimalExponent (num den : Nat) : Int :=
  if den ≤ num then
    (Nat.toDigits 10 (num / den)).length - 1
  else
    let width := (Nat.toDigits 10 (den / num)).length
    if den ≤ num * tenTo (width - 1) then 1 - width else -width

/-- The two neighbours of `num / den` on the grid of multiples of `10 ^ exponent`, the nearer one
first. In a tie the even multiple is first. -/
def neighbours (num den : Nat) (exponent : Int) : List Decimal :=
  let scaled := num * tenTo (-exponent).toNat
  let unit := den * tenTo exponent.toNat
  let below := Decimal.trim ⟨scaled / unit, exponent⟩
  let above := Decimal.trim ⟨scaled / unit + 1, exponent⟩
  if nearestQuotient scaled unit = scaled / unit then [below, above] else [above, below]

/-- The magnitude itself as a decimal: a power of two in the denominator is a power of ten there and
a power of five in the numerator. -/
def exactDecimal (b : Binary) : Decimal :=
  let places := (-b.exponent).toNat
  ⟨b.numerator * Nat.pow 5 places, -places⟩

/-- Seventeen digits suffice to read any double back. -/
def maxDigits : Nat := 17

/-- The decimal with the fewest digits that reads back as the magnitude of a double, and of these
the nearest. The exact decimal reads back too, but is seldom that short. -/
def shortest (b : Binary) : Decimal :=
  let magnitude := nearest b.numerator b.denominator
  let top := decimalExponent b.numerator b.denominator
  let found := (List.range maxDigits).findSome? fun (further : Nat) =>
    (neighbours b.numerator b.denominator (top - further)).find? fun d => d.toFloat = magnitude
  found.getD (exactDecimal b)

end Number

end Reckoner
