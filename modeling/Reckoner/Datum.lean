import Reckoner.Arith.Tolerance
import Reckoner.Bindings
import Reckoner.Error

set_option autoImplicit false

namespace Reckoner

/-- Plain data. Two kinds of sequences are told apart, and integers from other numbers. -/
inductive Datum where
  | integer (n : Int)
  | float (x : Float)
  | boolean (b : Bool)
  | text (s : String)
  | complex (z : Complex)
  | list (elements : List Datum)
  | tuple (elements : List Datum)
  /-- A value of the language, handed in as it is. -/
  | value (v : Value)
  /-- Data that the language has no value for. -/
  | foreign (typeName : String)
deriving Inhabited

namespace Datum

def integerToValue (n : Int) : Except Fault Value :=
  match Number.ofInt? n with
  | some x => .ok (.number x)
  | none => .error (.breakdown .overflow)

/-- A complex number without an imaginary part, by the standard tolerance, is a real one; its parts
are kept as they are. -/
def complexToValue (z : Complex) : Value :=
  if Tolerance.standard.isZero z.im then .number z.re else .complex z

mutual

def toValue : Datum → Except Fault Value
  | .value v => .ok v
  | .boolean b => .ok (.boolean b)
  | .integer n => integerToValue n
  | .float x => .ok (.number x)
  | .complex z => .ok (complexToValue z)
  | .text s => .ok (.text s)
  | .list elements => return .list (← toValues elements)
  | .tuple elements => return .list (← toValues elements)
  | .foreign typeName => .error (.ofCause (.inconvertible typeName))

def toValues : List Datum → Except Fault (List Value)
  | [] => .ok []
  | datum :: rest => return (← toValue datum) :: (← toValues rest)

end

def toBindings (data : Bindings Datum) : Except Fault (Bindings Value) :=
  data.mapM toValue

def ofNumber (x : Float) : Datum :=
  match Binary.ofFloat? x with
  | some b => if b.isInteger then .integer b.floor else .float x
  | none => .float x

mutual

/-- A value as data, every number as a double. -/
def ofValue : Value → Datum
  | .number x => .float x
  | .boolean b => .boolean b
  | .text s => .text s
  | .complex z => .complex z
  | .list elements => .list (ofValues elements)

def ofValues : List Value → List Datum
  | [] => []
  | first :: rest => ofValue first :: ofValues rest

end

mutual

/-- A value as data, a number that is an integer as an integer. -/
def ofResult : Value → Datum
  | .number x => ofNumber x
  | .boolean b => .boolean b
  | .text s => .text s
  | .complex z => .complex z
  | .list elements => .list (ofResults elements)

def ofResults : List Value → List Datum
  | [] => []
  | first :: rest => ofResult first :: ofResults rest

end

end Datum

end Reckoner
