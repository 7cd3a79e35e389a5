import Reckoner.Bindings
import Reckoner.Error
import Reckoner.Text.Quoted
import Reckoner.Value

set_option autoImplicit false

namespace Reckoner

/-- The variables, in the order of their definition. -/
structure Scope where
  bindings : Bindings Value

namespace Scope

def constants : Bindings Value :=
  .ofList [("pi", .number 3.141592653589793), ("e", .number 2.718281828459045)]

def hasVariable (scope : Scope) (name : String) : Bool :=
  scope.bindings.contains name

/-- Whether a constant has exactly this name. -/
def hasConstant (name : String) : Bool :=
  constants.contains name

/-- The names that resolve: variables, then constants. -/
def available (scope : Scope) : List String :=
  scope.bindings.names ++ constants.names

/-- What a name stands for, a variable before a constant. -/
def resolve? (scope : Scope) (name : String) : Option Value :=
  (scope.bindings.get? name).or (constants.get? name)

def lookup (scope : Scope) (name : String) : Except Fault Value :=
  match scope.resolve? name with
  | some value => .ok value
  | none => .error (.ofCause (.unknownIdentifier name scope.available))

/-- The value of a constant, in either case of its letters. Variables play no part. -/
def lookupConstant (text : String) : Except Fault Value :=
  match constants.get? text.toLower with
  | some value => .ok value
  | none => .error (.ofCause (.unknownConstant text constants.names))

/-- Binds a variable, whether it is there or not. -/
def bind (scope : Scope) (name : String) (value : Value) : Scope :=
  ⟨scope.bindings.insert name value⟩

def define (scope : Scope) (name : String) (value : Value) : Except Fault Scope :=
  if scope.hasVariable name then
    .error (.ofCause (.duplicateDefinition name true))
  else
    .ok (scope.bind name value)

def assign (scope : Scope) (name : String) (value : Value) : Except Fault Scope :=
  if scope.hasVariable name then
    .ok (scope.bind name value)
  else
    .error (.ofCause (.undefinedVariable name true))

def summary (scope : Scope) : String :=
  "CalcEnvironment(variables=" ++ Text.quotedList scope.bindings.names ++ ")"

end Scope

end Reckoner
