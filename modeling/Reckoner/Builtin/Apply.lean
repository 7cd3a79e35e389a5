import Reckoner.Arith.Operations

set_option autoImplicit false

namespace Reckoner.Builtin

def singleArgument (f : Builtin) : List Value → Except Fault Value
  | [argument] => .ok argument
  | arguments => .error (.ofCause (.arityMismatch f (.exactly 1) arguments.length))

def realArgument (t : Tolerance) (f : Builtin) (arguments : List Value) : Except Fault Float := do
  Arith.toReal t f.name (← singleArgument f arguments)

/-- What a function over many operands works on: its arguments, or the elements if the only argument
is a list. -/
def operands : List Value → List Value
  | [.list elements] => elements
  | arguments => arguments

/-- The operands as real numbers. There may be none in a list, but there has to be an argument. -/
def realOperands (t : Tolerance) (f : Builtin) (arguments : List Value) :
    Except Fault (List Float) :=
  if arguments.isEmpty then
    .error (.ofCause (.arityMismatch f .atLeastOne 0))
  else
    (operands arguments).mapM (Arith.toReal t f.name)

/-- An integer function of the exact value; infinities and NaN stay what they are. -/
def ofExact (f : Binary → Int) (x : Float) : Float :=
  match Binary.ofFloat? x with
  | some b => Number.ofInt (f b)
  | none => x

/-- The nearest integer, a half going up. The distance to the integer below decides, as a double. -/
def roundHalfUp (x : Float) : Float :=
  ofExact (fun b => if 0.5 ≤ x - Number.ofInt b.floor then b.floor + 1 else b.floor) x

def ofAngle (f : Float → Float) (x : Float) : Except Fault Float :=
  if x.isFinite then Platform.ofAngle f x else .ok Number.nan

/-- The exponential, which is infinite where it is too large. -/
def exponential (x : Float) : Except Fault Float :=
  match Platform.exponential x with
  | .ok y => .ok y
  | .error .range => .ok Number.infinity
  | .error .domain => .error (.breakdown .domain)

/-- The natural logarithm, which is NaN below zero and minus infinity at zero. -/
def logarithm (x : Float) : Except Fault Float :=
  if x.isNaN || x < 0 then
    .ok Number.nan
  else if x == 0 then
    .ok (-Number.infinity)
  else
    Platform.logarithm x

/-- The first of the least numbers, or infinity if there is none. A NaN is not less than anything,
so it is the result only in the first place. -/
def least : List Float → Float
  | [] => Number.infinity
  | first :: rest => rest.foldl (fun best x => if x < best then x else best) first

def greatest : List Float → Float
  | [] => -Number.infinity
  | first :: rest => rest.foldl (fun best x => if best < x then x else best) first

/-- The magnitude of a complex number, whatever the tolerance; else that of a real one. -/
def magnitude (t : Tolerance) : Value → Except Fault Float
  | .complex z => .ok (Number.hypotenuse z.re z.im)
  | v => (Arith.toReal t abs.name v).map Float.abs

def squareRoot (t : Tolerance) (x : Float) : Except Fault Value :=
  if x < 0 then
    (Platform.squareRoot x.abs).map fun im => t.collapse ⟨0, im⟩
  else
    (Platform.squareRoot x).map .number

/-- The natural logarithm, or the logarithm to a base, which is the quotient of two. -/
def applyLog (t : Tolerance) : List Value → Except Fault Value
  | [operand] => do
    return .number (← logarithm (← Arith.toReal t log.name operand))
  | [operand, base] => do
    let x ← Arith.toReal t log.name operand
    let b ← Arith.toReal t log.name base
    if b ≤ 0 || b == 1 then
      throw (.ofCause (.invalidLogBase b))
    else
      return .number (← Platform.quotient (← logarithm x) (← logarithm b))
  | arguments => .error (.ofCause (.arityMismatch log .oneOrTwo arguments.length))

def sumOf (t : Tolerance) (arguments : List Value) : Except Fault Value :=
  (operands arguments).foldlM (Arith.add t) (.number 0)

def lengthOf : Value → Except Fault Nat
  | .list elements => .ok elements.length
  | .text s => .ok s.length
  | v => .error (.ofCause (.hasNoLength v.typeName))

/-- The number of arguments is checked first, then their kinds from the left. -/
def apply (t : Tolerance) (f : Builtin) (arguments : List Value) : Except Fault Value :=
  match f with
  | .abs => do return .number (← magnitude t (← singleArgument f arguments))
  | .ceil => real fun x => .ok (ofExact Binary.ceil x)
  | .floor => real fun x => .ok (ofExact Binary.floor x)
  | .round => real fun x => .ok (roundHalfUp x)
  | .sin => real (ofAngle Float.sin)
  | .cos => real (ofAngle Float.cos)
  | .tan => real (ofAngle Float.tan)
  | .exp => real exponential
  | .sqrt => do squareRoot t (← realArgument t f arguments)
  | .log => applyLog t arguments
  | .min => do return .number (least (← realOperands t f arguments))
  | .max => do return .number (greatest (← realOperands t f arguments))
  | .sum => sumOf t arguments
  | .len => do
    let length ← lengthOf (← singleArgument f arguments)
    return .number (Number.ofInt length)
where
  real (g : Float → Except Fault Float) : Except Fault Value := do
    return .number (← g (← realArgument t f arguments))

end Reckoner.Builtin
