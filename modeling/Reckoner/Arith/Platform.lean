import Reckoner.Error
import Reckoner.Number.Binary

set_option autoImplicit false

namespace Reckoner.Platform

/-- The quotient of two numbers. There is none by zero. -/
def quotient (x y : Float) : Except Fault Float :=
  if y == 0 then .error (.breakdown .divisionByZero) else .ok (x / y)

/-- The remainder of division toward zero. There is none of an infinity, and none by zero; a finite
number is its own remainder by an infinity. -/
def remainder (x y : Float) : Except Fault Float :=
  match Binary.ofFloat? x, Binary.ofFloat? y with
  | some a, some b =>
    if b.mantissa = 0 then .error (.breakdown .domain) else .ok (a.remainder b).toFloat
  | some _, none => .ok (if y.isNaN then y else x)
  | none, _ => if x.isInf && !y.isNaN then .error (.breakdown .domain) else .ok Number.nan

def squareRoot (x : Float) : Except Fault Float :=
  if x < 0 then .error (.breakdown .domain) else .ok x.sqrt

def logarithm (x : Float) : Except Fault Float :=
  if x ≤ 0 then .error (.breakdown .domain) else .ok x.log

def ofAngle (f : Float → Float) (x : Float) : Except Fault Float :=
  if x.isInf then .error (.breakdown .domain) else .ok (f x)

/-- Why powers and exponentials have no value: there is none, or it is too large for a double. -/
inductive MathError where
  | domain
  | range
deriving DecidableEq

/-- The exponential of a number, which can be too large for a double. -/
def exponential (x : Float) : Except MathError Float :=
  if x.isFinite && x.exp.isInf then .error .range else .ok x.exp

/-- A power of two finite numbers can be too large for a double. Zero has none with a negative
exponent, and a negative number none with a fraction for an exponent. -/
def power (base exponent : Float) : Except MathError Float :=
  let power := base.pow exponent
  if base.isFinite && exponent.isFinite then
    if power.isNaN then .error .domain
    else if power.isInf then .error (if base == 0 then .domain else .range)
    else .ok power
  else
    .ok power

end Reckoner.Platform
