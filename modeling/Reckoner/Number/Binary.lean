import Reckoner.Number.Nearest

set_option autoImplicit false

namespace Reckoner

/-- The exact fraction `± mantissa * 2 ^ exponent`. -/
structure Binary where
  negative : Bool
  mantissa : Nat
  exponent : Int
deriving DecidableEq

namespace Binary

/-- The leading mantissa bit, which the bits of a double leave out unless the double is very small.
-/
def hiddenBit : Nat := 0x10000000000000

/-- The fraction that a finite double stands for; nothing for an infinity or NaN. -/
def ofFloat? (x : Float) : Option Binary :=
  let bits := x.toBits.toNat
  let fraction := bits % hiddenBit
  let field := bits / hiddenBit % 0x800
  let negative := decide (0x8000000000000000 ≤ bits)
  if field = 0x7ff then
    none
  else if field = 0 then
    some ⟨negative, fraction, -1074⟩
  else
    some ⟨negative, hiddenBit + fraction, (field : Int) - 1075⟩

def numerator (b : Binary) : Nat :=
  b.mantissa <<< b.exponent.toNat

/-- A power of two, and one for an integer written with a non-negative exponent. -/
def denominator (b : Binary) : Nat :=
  1 <<< (-b.exponent).toNat

def signedNumerator (b : Binary) : Int :=
  if b.negative then -(b.numerator : Int) else b.numerator

/-- The double nearest to the fraction, which is the double it came from. Zero keeps its sign. -/
def toFloat (b : Binary) : Float :=
  Number.signed b.negative (Number.nearest b.numerator b.denominator)

def isInteger (b : Binary) : Bool :=
  b.numerator % b.denominator == 0

def floor (b : Binary) : Int :=
  b.signedNumerator / b.denominator

def ceil (b : Binary) : Int :=
  -(-b.signedNumerator / b.denominator)

def nearestEven (b : Binary) : Int :=
  let n : Int := Number.nearestQuotient b.numerator b.denominator
  if b.negative then -n else n

/-- The magnitude in units of `2 ^ unit`, exact when `unit` is not above the exponent. -/
def scaledTo (b : Binary) (unit : Int) : Nat :=
  b.mantissa <<< (b.exponent - unit).toNat

/-- What is left of `a` after taking `b` away as often as it fits, toward zero. The sign is that of
`a`, also on a zero. -/
def remainder (a b : Binary) : Binary :=
  let unit := min a.exponent b.exponent
  ⟨a.negative, a.scaledTo unit % b.scaledTo unit, unit⟩

example : (ofFloat? (-2.5)).map floor = some (-3) ∧ (ofFloat? (-2.5)).map ceil = some (-2) ∧
    (ofFloat? 2.5).map nearestEven = some 2 := by decide +kernel

end Binary

namespace Number

/-- The greatest natural number whose square is not above `n`. -/
def squareRoot (n : Nat) : Nat :=
  if n = 0 then
    0
  else
    let root := 2 * squareRoot (n / 4)
    if (root + 1) * (root + 1) ≤ n then root + 1 else root
decreasing_by omega

/-- The fractional bits kept of a square root before it is rounded: enough that the bit after the
last one can stand for all that follow. -/
def guardBits : Nat := 64

def vectorLength (a b : Binary) : Float :=
  let unit := min a.exponent b.exponent
  let x := a.scaledTo unit
  let y := b.scaledTo unit
  let square := (x * x + y * y) <<< (2 * guardBits)
  let root := squareRoot square
  let mantissa := 2 * root + if root * root = square then 0 else 1
  (⟨false, mantissa, unit - guardBits - 1⟩ : Binary).toFloat

/-- The length of the vector `(x, y)`: infinite as soon as one part is, even beside a NaN. -/
def hypotenuse (x y : Float) : Float :=
  if x.isInf || y.isInf then
    infinity
  else
    match Binary.ofFloat? x, Binary.ofFloat? y with
    | some a, some b => vectorLength a b
    | _, _ => x + y

end Number

end Reckoner
