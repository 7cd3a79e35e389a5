set_option autoImplicit false

namespace Reckoner.Number

/-- The natural number nearest to `num / den`, a tie going to the even one. -/
def nearestQuotient (num den : Nat) : Nat :=
  let quotient := num / den
  match compare (2 * (num % den)) den with
  | .lt => quotient
  | .eq => quotient + quotient % 2
  | .gt => quotient + 1

/-- The exponent of the last mantissa bit of the doubles around `num / den`: fifty-two below that of
the leading bit, and never below that of the least positive double. -/
def unitExponent (num den : Nat) : Int :=
  let estimate : Int := (num.log2 : Int) - den.log2
  let leading :=
    if num <<< (-estimate).toNat < den <<< estimate.toNat then estimate - 1 else estimate
  max (leading - 52) (-1074)

def nan : Float := Float.ofBits 0x7ff8000000000000

/-- The bits of positive infinity; the positive doubles are the bit patterns below it, in order. -/
def infinityBits : Nat := 0x7ff <<< 52

def infinity : Float := Float.ofBits infinityBits.toUInt64

/-- The double nearest to `num / den`, a tie going to the even mantissa, and infinity beyond the
range. The bits of a double are those of its mantissa with the exponent added above them, so a
mantissa that rounding carried to the next power of two needs no case of its own. -/
def nearest (num den : Nat) : Float :=
  if num = 0 then
    Float.ofBits 0
  else
    let unit := unitExponent num den
    let mantissa := nearestQuotient (num <<< (-unit).toNat) (den <<< unit.toNat)
    Float.ofBits (min (mantissa + (unit + 1074).toNat <<< 52) infinityBits).toUInt64

def signed (negative : Bool) (x : Float) : Float :=
  if negative then -x else x

def ofInt (n : Int) : Float :=
  signed (n < 0) (nearest n.natAbs 1)

def ofInt? (n : Int) : Option Float :=
  if (ofInt n).isInf then none else some (ofInt n)

example : nearest 1 10 = 0.1 ∧ nearest 9007199254740993 1 = 9007199254740992 := by decide +kernel

example : ofInt (-7) = -7.0 ∧ (ofInt (1 <<< 1024)).isInf = true := by decide +kernel

end Reckoner.Number
