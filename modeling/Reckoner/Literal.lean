import Reckoner.Arith.Tolerance
import Reckoner.Error
import Reckoner.Number.Numeral

set_option autoImplicit false

namespace Reckoner.Literal

def number (text : String) : Except Fault Float :=
  match Numeral.read text with
  | .ok x => .ok x
  | .error .malformed => .error (.ofCause (.invalidNumeral text))
  | .error .tooLarge => .error (.breakdown .overflow)

/-- The text of an imaginary literal without the `i` at its end. -/
def withoutUnit (text : String) : String :=
  if text.toList.getLast? = some 'i' then String.ofList text.toList.dropLast else text

/-- The factor of the imaginary unit: a numeral, or a sign or nothing for one. -/
def factor (text : String) : Except Fault Float :=
  if text = "" || text = "+" then
    .ok 1
  else if text = "-" then
    .ok (-1)
  else
    number text

def imaginary (t : Tolerance) (text : String) : Except Fault Value :=
  (factor (withoutUnit text)).map fun im => t.collapse ⟨0, im⟩

end Reckoner.Literal
