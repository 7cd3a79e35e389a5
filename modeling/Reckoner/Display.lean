import Reckoner.Arith.Tolerance
import Reckoner.Number.Written

set_option autoImplicit false

namespace Reckoner.Display

/-- A complex number as `a + bi`. A part that counts as zero is left out. -/
def complexText (t : Tolerance) (z : Complex) : String :=
  let re := t.snap z.re
  let im := t.snap z.im
  if im == 0 then
    Number.displayText re
  else if re == 0 then
    Number.displayText im ++ "i"
  else
    Number.displayText re ++ (if 0 ≤ im then " + " else " - ") ++ Number.displayText im.abs ++ "i"

mutual

def text (t : Tolerance) : Value → String
  | .boolean b => if b then "true" else "false"
  | .text s => s
  | .number x => Number.displayText x
  | .complex z => complexText t z
  | .list elements => "[" ++ ", ".intercalate (texts t elements) ++ "]"

def texts (t : Tolerance) : List Value → List String
  | [] => []
  | value :: rest => text t value :: texts t rest

end

/-- What can be shown: a value, the absence of one, or a list in which values may be absent. -/
inductive Shown where
  | nothing
  | value (v : Value)
  | list (items : List Shown)

mutual

def shownText (t : Tolerance) : Shown → String
  | .nothing => "None"
  | .value v => text t v
  | .list items => "[" ++ ", ".intercalate (shownTexts t items) ++ "]"

def shownTexts (t : Tolerance) : List Shown → List String
  | [] => []
  | item :: rest => shownText t item :: shownTexts t rest

end

end Reckoner.Display
