import Reckoner.Number.Decimal

set_option autoImplicit false

namespace Reckoner

namespace Decimal

/-- Without an exponent: the point inside the digits, or zeros filling up to it. -/
def positional (d : Decimal) : List Char :=
  let places := (-d.exponent).toNat
  let padded := List.replicate (places + 1 - d.digits.length) '0' ++ d.digits ++
    List.replicate d.exponent.toNat '0'
  if places = 0 then
    padded
  else
    padded.take (padded.length - places) ++ '.' :: padded.drop (padded.length - places)

/-- One digit before the point, and the exponent with its sign in at least `width` digits. -/
def scientific (d : Decimal) (width : Nat) : List Char :=
  let mantissa := match d.digits with
    | first :: second :: rest => first :: '.' :: second :: rest
    | short => short
  let exponent := Nat.toDigits 10 d.leadingExponent.natAbs
  mantissa ++ 'e' :: (if d.leadingExponent < 0 then '-' else '+') ::
    (List.replicate (width - exponent.length) '0' ++ exponent)

end Decimal

namespace Number

def withSign (negative : Bool) (text : List Char) : String :=
  String.ofList (if negative then '-' :: text else text)

/-- The form in error reports: every number has a point or an exponent, zero keeps its sign, and an
exponent of two digits or more appears from `1e16` up and below `1e-4`. -/
def reportText (x : Float) : String :=
  match Binary.ofFloat? x with
  | none => if x.isNaN then "nan" else if 0 < x then "inf" else "-inf"
  | some b =>
    if b.mantissa = 0 then
      withSign b.negative ['0', '.', '0']
    else
      let d := shortest b
      withSign b.negative <|
        if d.leadingExponent < -4 || 16 ≤ d.leadingExponent then
          d.scientific 2
        else if d.exponent < 0 then
          d.positional
        else
          d.positional ++ ['.', '0']

/-- The form of printed values: an integer below `1e21` is written out in full and zero has no sign;
an exponent appears only from `1e21` up and below `1e-6`. -/
def displayText (x : Float) : String :=
  match Binary.ofFloat? x with
  | none => if x.isNaN then "NaN" else if 0 < x then "Infinity" else "-Infinity"
  | some b =>
    if b.mantissa = 0 then
      "0"
    else if b.isInteger && x.abs < 1e21 then
      withSign b.negative (Nat.toDigits 10 (b.numerator / b.denominator))
    else if 1e-6 ≤ x.abs && x.abs < 1e21 then
      withSign b.negative (shortest b).positional
    else
      withSign b.negative ((shortest b).scientific 1)

end Number

end Reckoner
