set_option autoImplicit false

namespace Reckoner

structure Complex where
  re : Float
  im : Float
deriving DecidableEq

namespace Complex

def ofReal (x : Float) : Complex := ⟨x, 0⟩

def add (a b : Complex) : Complex := ⟨a.re + b.re, a.im + b.im⟩

def sub (a b : Complex) : Complex := ⟨a.re - b.re, a.im - b.im⟩

/-- The product by the distributive law, each operation rounded. -/
def mul (a b : Complex) : Complex :=
  ⟨a.re * b.re - a.im * b.im, a.re * b.im + a.im * b.re⟩

def normSquare (a : Complex) : Float := a.re * a.re + a.im * a.im

/-- The quotient through the conjugate of the divisor, each operation rounded. -/
def div (a b : Complex) : Complex :=
  ⟨(a.re * b.re + a.im * b.im) / b.normSquare, (a.im * b.re - a.re * b.im) / b.normSquare⟩

end Complex

inductive Value where
  | number (x : Float)
  | boolean (b : Bool)
  | text (s : String)
  | complex (z : Complex)
  | list (elements : List Value)
deriving Inhabited

namespace Value

def typeName : Value → String
  | .number _ => "number"
  | .boolean _ => "boolean"
  | .text _ => "string"
  | .complex _ => "complex"
  | .list _ => "list"

/-- The numbers, truth values and complex numbers: what arithmetic accepts. -/
def isNumeric : Value → Bool
  | .number _ | .boolean _ | .complex _ => true
  | .text _ | .list _ => false

end Value

/-- A truth value as a number. -/
def indicator (b : Bool) : Float :=
  if b then 1 else 0

end Reckoner
