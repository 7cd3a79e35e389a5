import Reckoner.Arith.Tolerance
import Reckoner.Error

set_option autoImplicit false

namespace Reckoner.Arith

/-- A number, truth value or complex number as a complex number. -/
def toComplex (operation : String) : Value → Except Fault Complex
  | .complex z => .ok z
  | .number x => .ok (.ofReal x)
  | .boolean b => .ok (.ofReal (indicator b))
  | v@(.text _) | v@(.list _) => .error (.ofCause (.notComplex operation v.typeName))

/-- A number, a truth value, or the real part of a complex number whose imaginary part counts as
zero. -/
def toReal (t : Tolerance) (operation : String) : Value → Except Fault Float
  | .number x => .ok x
  | .boolean b => .ok (indicator b)
  | .complex z =>
    if t.isZero z.im then .ok z.re else .error (.ofCause (.hasImaginaryPart operation z.im))
  | v@(.text _) | v@(.list _) => .error (.ofCause (.notReal operation v.typeName))

end Reckoner.Arith
