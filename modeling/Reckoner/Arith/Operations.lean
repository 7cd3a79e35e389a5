import Reckoner.Arith.Coercion
import Reckoner.Arith.Platform

set_option autoImplicit false

namespace Reckoner.Arith

def add (t : Tolerance) (left right : Value) : Except Fault Value := do
  let a ← toComplex "addition" left
  let b ← toComplex "addition" right
  return t.collapse (a.add b)

def subtract (t : Tolerance) (left right : Value) : Except Fault Value := do
  let a ← toComplex "subtraction" left
  let b ← toComplex "subtraction" right
  return t.collapse (a.sub b)

def multiply (t : Tolerance) (left right : Value) : Except Fault Value := do
  let a ← toComplex "multiplication" left
  let b ← toComplex "multiplication" right
  return t.collapse (a.mul b)

/-- The quotient of complex numbers. A divisor whose squared magnitude counts as zero is an error;
one that is zero and does not count as such has no quotient at all. -/
def divideComplex (t : Tolerance) (a b : Complex) : Except Fault Value :=
  if t.isZero b.normSquare then
    .error (.ofCause (.divisionByZero b.normSquare))
  else if b.normSquare == 0 then
    .error (.breakdown .divisionByZero)
  else
    .ok (t.collapse (a.div b))

def divide (t : Tolerance) (left right : Value) : Except Fault Value := do
  let a ← toComplex "division" left
  let b ← toComplex "division" right
  divideComplex t a b

/-- The remainder has the sign of the dividend. That of an infinity or NaN is NaN. -/
def modulo (t : Tolerance) (left right : Value) : Except Fault Value := do
  let dividend ← toReal t "modulo" left
  let divisor ← toReal t "modulo" right
  if t.isZero divisor then
    throw (.ofCause .moduloByZero)
  else if dividend.isFinite then
    return .number (← Platform.remainder dividend divisor)
  else
    return .number Number.nan

/-- One step of an integer power: the product in canonical form, as a complex number again. -/
def powerStep (t : Tolerance) (base power : Complex) : Complex :=
  let product := power.mul base
  let im := t.snap product.im
  ⟨t.snap product.re, if im == 0 then 0 else im⟩

def naturalPower (t : Tolerance) (base : Complex) (n : Nat) : Complex :=
  n.repeat (powerStep t base) (.ofReal 1)

/-- The power of a real base with an exponent that is not an integer, or not taken for one. It is
infinite where it overflows, and where zero has a negative exponent; a negative base has none, which
is NaN. -/
def realPower (t : Tolerance) (base exponent : Float) : Float :=
  if exponent.isNaN then
    Number.nan
  else
    match Platform.power base exponent with
    | .ok power => power
    | .error .domain => if base == 0 then Number.infinity else Number.nan
    | .error .range =>
      match t.integer? exponent with
      | some n => if base < 0 && n % 2 == 1 then -Number.infinity else Number.infinity
      | none => Number.infinity

/-- The power of a complex base. An exponent that counts as an integer gives a repeated product or
the reciprocal of one; another needs a real base. -/
def powerComplex (t : Tolerance) (base : Complex) (exponent : Float) : Except Fault Value :=
  match t.integer? exponent with
  | some n =>
    let product := naturalPower t base n.natAbs
    if exponent < 0 then do
      let quotient ← divideComplex t (.ofReal 1) product
      return t.collapse (← toComplex "power" quotient)
    else
      .ok (t.collapse product)
  | none =>
    if t.isZero base.im then
      .ok (.number (realPower t base.re exponent))
    else
      .error (.ofCause (.complexBase exponent))

/-- Powers. The exponent has to be real. -/
def power (t : Tolerance) (base exponent : Value) : Except Fault Value := do
  let e ← toComplex "power" exponent
  if t.isZero e.im then
    powerComplex t (← toComplex "power" base) e.re
  else
    throw (.ofCause (.complexExponent e.im))

/-- The product of `count` successive integers from `next` on, times `product`. It ends early once
it is infinite. -/
def risingProduct : (count next : Nat) → (product : Float) → Float
  | 0, _, product => product
  | count + 1, next, product =>
    let larger := product * Number.ofInt next
    if larger.isInf then larger else risingProduct count (next + 1) larger

def naturalFactorial (n : Nat) : Float :=
  risingProduct (n - 1) 2 1

/-- The factorial of a number that counts as a non-negative integer, which is that of its integer
part. -/
def factorial (t : Tolerance) (operand : Value) : Except Fault Value := do
  let x ← toReal t "factorial" operand
  match Binary.ofFloat? x with
  | some b =>
    if x < 0 || !t.isInteger x then
      throw (.ofCause (.invalidFactorial x))
    else
      return .number (naturalFactorial b.floor.toNat)
  | none => throw (.ofCause (.invalidFactorial x))

end Reckoner.Arith
