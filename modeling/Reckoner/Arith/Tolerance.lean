import Reckoner.Number.Binary
import Reckoner.Value

set_option autoImplicit false

namespace Reckoner

/-- Numbers of magnitude at most `bound` count as zero. The bound may be any double. -/
structure Tolerance where
  bound : Float
deriving DecidableEq

namespace Tolerance

def standard : Tolerance := ⟨1e-9⟩

def isZero (t : Tolerance) (x : Float) : Bool :=
  x.abs ≤ t.bound

def snap (t : Tolerance) (x : Float) : Float :=
  if t.isZero x then 0 else x

/-- The integer that a finite number counts as: the nearest one, a tie going to the even neighbour,
if the difference counts as zero. -/
def integer? (t : Tolerance) (x : Float) : Option Int :=
  match Binary.ofFloat? x with
  | none => none
  | some b => if t.isZero (x - Number.ofInt b.nearestEven) then some b.nearestEven else none

def isInteger (t : Tolerance) (x : Float) : Bool :=
  (t.integer? x).isSome

/-- A complex result as a value: a part that counts as zero is zero, and a number without an
imaginary part is real. -/
def collapse (t : Tolerance) (z : Complex) : Value :=
  let re := t.snap z.re
  let im := t.snap z.im
  if im == 0 then .number re else .complex ⟨re, im⟩

end Tolerance

end Reckoner
