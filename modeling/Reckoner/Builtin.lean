set_option autoImplicit false

namespace Reckoner

inductive Builtin where
  | abs
  | ceil
  | cos
  | exp
  | floor
  | len
  | log
  | max
  | min
  | round
  | sin
  | sqrt
  | sum
  | tan
deriving DecidableEq

namespace Builtin

def all : List Builtin :=
  [abs, ceil, cos, exp, floor, len, log, max, min, round, sin, sqrt, sum, tan]

def name : Builtin → String
  | .abs => "abs"
  | .ceil => "ceil"
  | .cos => "cos"
  | .exp => "exp"
  | .floor => "floor"
  | .len => "len"
  | .log => "log"
  | .max => "max"
  | .min => "min"
  | .round => "round"
  | .sin => "sin"
  | .sqrt => "sqrt"
  | .sum => "sum"
  | .tan => "tan"

/-- A call and its value. -/
def usage : Builtin → String
  | .abs => "abs(-3) → 3"
  | .ceil => "ceil(1.2) → 2"
  | .cos => "cos(0) → 1"
  | .exp => "exp(0) → 1"
  | .floor => "floor(1.8) → 1"
  | .len => "len([1, 2, 3]) → 3"
  | .log => "log(8, 2) → 3"
  | .max => "max(1, 5, 3) → 5"
  | .min => "min([4, 2, 8]) → 2"
  | .round => "round(2.5) → 3"
  | .sin => "sin(0) → 0"
  | .sqrt => "sqrt(-4) → 2i"
  | .sum => "sum([1, 2, 3]) → 6"
  | .tan => "tan(0) → 0"

def names : List String :=
  all.map name

def ofName? (text : String) : Option Builtin :=
  all.find? fun f => f.name = text

/-- An example of calling a function by name, known or not. -/
def usageOf (text : String) : String :=
  match ofName? text with
  | some f => f.usage
  | none => text ++ "(...)"

theorem mem_all (f : Builtin) : f ∈ all := by
  cases f <;> decide

@[simp] theorem ofName?_name (f : Builtin) : ofName? f.name = some f := by
  cases f <;> decide

theorem ofName?_eq_some {text : String} {f : Builtin} : ofName? text = some f ↔ text = f.name := by
  constructor
  · intro found
    have same := List.find?_some found
    simp only [decide_eq_true_eq] at same
    exact same.symm
  · rintro rfl
    exact ofName?_name f

end Builtin

end Reckoner
