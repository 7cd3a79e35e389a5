import Reckoner.Arith.Coercion

set_option autoImplicit false

namespace Reckoner

inductive Relation where
  | equal
  | unequal
  | less
  | lessEqual
  | greater
  | greaterEqual
deriving DecidableEq

namespace Relation

def all : List Relation :=
  [equal, unequal, less, lessEqual, greater, greaterEqual]

def symbol : Relation → String
  | .equal => "=="
  | .unequal => "!="
  | .less => "<"
  | .lessEqual => "<="
  | .greater => ">"
  | .greaterEqual => ">="

def ofSymbol? (operator : String) : Option Relation :=
  all.find? fun relation => relation.symbol = operator

end Relation

namespace Arith

mutual

/-- Numbers are equal if both parts of their difference count as zero, texts if they are the same,
lists if their elements are equal one by one. A text and a list are unequal, but a number has to be
compared with a number. -/
def equals (t : Tolerance) : Value → Value → Except Fault Bool
  | .text left, .text right => .ok (left = right)
  | .list left, .list right =>
    if left.length = right.length then equalElements t left right else .ok false
  | .text _, .list _ => .ok false
  | .list _, .text _ => .ok false
  | left, right => do
    let a ← toComplex "equality" left
    let b ← toComplex "equality" right
    return t.isZero (a.re - b.re) && t.isZero (a.im - b.im)

/-- Compares elements from the left up to the first pair that differs. -/
def equalElements (t : Tolerance) : List Value → List Value → Except Fault Bool
  | left :: lefts, right :: rights => do
    if ← equals t left right then equalElements t lefts rights else return false
  | _, _ => .ok true

end

/-- Whether a relation holds. Only real numbers have an order. -/
def holds (t : Tolerance) (relation : Relation) (left right : Value) : Except Fault Bool :=
  match relation with
  | .equal => equals t left right
  | .unequal => (equals t left right).map (!·)
  | .less => ordered fun a b => a < b
  | .lessEqual => ordered fun a b => a ≤ b
  | .greater => ordered fun a b => b < a
  | .greaterEqual => ordered fun a b => b ≤ a
where
  ordered (test : Float → Float → Bool) : Except Fault Bool := do
    let a ← toReal t "comparison" left
    let b ← toReal t "comparison" right
    return test a b

def compareBy (t : Tolerance) (operator : String) (left right : Value) : Except Fault Bool :=
  match Relation.ofSymbol? operator with
  | some relation => holds t relation left right
  | none =>
    .error (.ofCause (.unsupportedOperator operator (Relation.all.map Relation.symbol)))

/-- A number is true unless it counts as zero, a text or a list unless it is empty. -/
def isTrue (t : Tolerance) : Value → Bool
  | .boolean b => b
  | .number x => !t.isZero x
  | .complex z => !t.isZero z.re || !t.isZero z.im
  | .text s => !s.isEmpty
  | .list elements => !elements.isEmpty

/-- The absence of a value is false. -/
def isTrueResult (t : Tolerance) (result : Option Value) : Bool :=
  result.any (isTrue t)

end Arith

end Reckoner
