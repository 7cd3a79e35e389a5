import Reckoner.Builtin
import Reckoner.Diagnostic
import Reckoner.Number.Written
import Reckoner.Suggestion

set_option autoImplicit false

/-!
What can go wrong in an evaluation. A cause says what happened and holds the data of the report; the
wording of all reports is in `Cause.diagnostic`. A breakdown is a failure of the arithmetic itself,
which the language has no rule for; it has a report only once a whole run is over.
-/

namespace Reckoner

/-- A failure below the language: an operation that has no result, or no room to go on. -/
inductive Breakdown where
  | divisionByZero
  | domain
  | overflow
  | stackExhausted
deriving DecidableEq

def Breakdown.message : Breakdown → String
  | .divisionByZero => "float division by zero"
  | .domain => "math domain error"
  | .overflow => "int too large to convert to float"
  | .stackExhausted => "maximum recursion depth exceeded"

inductive Arity where
  | exactly (count : Nat)
  | oneOrTwo
  | atLeastOne
deriving DecidableEq

/-- Why an evaluation failed. -/
inductive Cause where
  /-- The name to be defined is bound. The report has an example if the name was free at first. -/
  | duplicateDefinition (name : String) (withUsage : Bool)
  /-- The name to be assigned is free. -/
  | undefinedVariable (name : String) (withUsage : Bool)
  /-- The name is neither bound nor a constant; `available` are the names that are. -/
  | unknownIdentifier (name : String) (available : List String)
  | unknownConstant (text : String) (known : List String)
  | unknownFunction (name : String) (argumentCount : Nat)
  | arityMismatch (function : Builtin) (arity : Arity) (argumentCount : Nat)
  /-- The operand of an operation over the complex numbers is a text or a list. -/
  | notComplex (operation typeName : String)
  /-- The operand of an operation over the real numbers is a text or a list. -/
  | notReal (operation typeName : String)
  /-- The operand of an operation over the real numbers has an imaginary part. -/
  | hasImaginaryPart (operation : String) (im : Float)
  | hasNoLength (typeName : String)
  | divisionByZero (normSquare : Float)
  | moduloByZero
  | complexExponent (im : Float)
  | complexBase (exponent : Float)
  | invalidFactorial (operand : Float)
  | invalidLogBase (base : Float)
  | unsupportedOperator (operator : String) (supported : List String)
  | invalidNumeral (text : String)
  | unsupportedAtom
  | unsupportedJuxtaposition (parts : List String)
  /-- A value was needed where a node of that name had none. -/
  | noValue (nodeName : String)
  | unexpectedToken (text : String)
  | tooDeep (limit : Int)
  | inconvertible (typeName : String)
  | brokenDown (breakdown : Breakdown)
deriving DecidableEq

namespace Cause

/-- At most ten names are listed as available. -/
def listedNames (available : List String) : String :=
  let sorted := available.mergeSort fun a b => a ≤ b
  ", ".intercalate (sorted.take 10) ++ if 10 < sorted.length then ", ..." else ""

def arityMessage (function : Builtin) (argumentCount : Nat) : Arity → String
  | .exactly count =>
    function.name ++ " expects " ++ count.repr ++ " argument(s), got " ++ argumentCount.repr
  | .oneOrTwo => function.name ++ " expects one or two arguments, got " ++ argumentCount.repr
  | .atLeastOne => function.name ++ " expects at least one argument"

def juxtapositionText (parts : List String) : String :=
  if parts.isEmpty then "empty juxtaposition" else " ".intercalate parts

def tooDeepSuggestion : String :=
  "Split the expression into smaller statements using variables"

def breakdownDiagnostic : Breakdown → Diagnostic
  | .stackExhausted =>
    { kind := .tooDeep
      message := "Expression too deeply nested (Python recursion limit reached)"
      suggestion := some tooDeepSuggestion }
  | breakdown =>
    { kind := .evaluation
      message := "Unexpected error during evaluation: " ++ breakdown.message
      suggestion := some "This is an internal error - please report this issue" }

def diagnostic : Cause → Diagnostic
  | .duplicateDefinition name withUsage =>
    { kind := .duplicateDefinition
      message := "Variable '" ++ name ++ "' already defined"
      suggestion := some ("Use '" ++ name ++ " = ...' to change an existing variable")
      usage := if withUsage then some (name ++ " = 2") else none }
  | .undefinedVariable name withUsage =>
    { kind := .undefinedVariable
      message := "Variable '" ++ name ++ "' is not defined"
      suggestion := some ("Define it first with 'var " ++ name ++ " = ...'")
      usage := if withUsage then some ("var " ++ name ++ " = 1") else none }
  | .unknownIdentifier name available =>
    { kind := .unknownIdentifier
      message := "Identifier '" ++ name ++ "' is not defined"
      context := some ("Available names: " ++ listedNames available)
      suggestion := Suggestion.question? name available }
  | .unknownConstant text known =>
    { kind := .unknownConstant
      message := "Unknown constant '" ++ text ++ "'"
      expected := some (", ".intercalate (known.mergeSort fun a b => a ≤ b)) }
  | .unknownFunction name argumentCount =>
    { kind := .unknownFunction
      message := "Unknown function '" ++ name ++ "'"
      received := some (argumentCount.repr ++ " argument(s)")
      context := some ("Available functions: " ++ ", ".intercalate Builtin.names)
      suggestion := Suggestion.question? name Builtin.names }
  | .arityMismatch function arity argumentCount =>
    { kind := .arityMismatch
      message := arityMessage function argumentCount arity
      usage := some function.usage }
  | .notComplex operation typeName =>
    { kind := .typeMismatch
      message := operation ++ " expects numeric arguments"
      received := some typeName
      expected := some "number, boolean or complex" }
  | .notReal operation typeName =>
    { kind := .typeMismatch
      message := operation ++ " expects numeric arguments"
      received := some typeName
      expected := some "number, boolean or real-valued complex" }
  | .hasImaginaryPart operation im =>
    { kind := .typeMismatch
      message := operation ++ " does not support complex values"
      received := some ("complex with imaginary part " ++ Number.reportText im)
      expected := some "real number" }
  | .hasNoLength typeName =>
    { kind := .typeMismatch
      message := "len expects an array or string"
      received := some typeName
      usage := some Builtin.len.usage }
  | .divisionByZero normSquare =>
    { kind := .divisionByZero
      message := "Division by zero"
      received := some ("divisor with squared magnitude " ++ Number.reportText normSquare) }
  | .moduloByZero =>
    { kind := .moduloByZero
      message := "Modulo by zero" }
  | .complexExponent im =>
    { kind := .complexExponent
      message := "Complex exponents are not supported"
      received := some ("exponent with imaginary part " ++ Number.reportText im) }
  | .complexBase exponent =>
    { kind := .complexBase
      message := "Non-integer powers of complex numbers are not supported"
      received := some ("exponent " ++ Number.reportText exponent) }
  | .invalidFactorial operand =>
    { kind := .invalidFactorial
      message := "Factorial expects a non-negative integer"
      received := some (Number.reportText operand) }
  | .invalidLogBase base =>
    { kind := .invalidLogBase
      message := "log base must be positive and not equal to 1"
      received := some ("base " ++ Number.reportText base)
      usage := some Builtin.log.usage }
  | .unsupportedOperator operator supported =>
    { kind := .unsupportedOperator
      message := "Unsupported operator '" ++ operator ++ "'"
      expected := some (", ".intercalate supported) }
  | .invalidNumeral text =>
    { kind := .unsupportedAtom
      message := "Invalid numeric literal '" ++ text ++ "'"
      expected := some "decimal, float, or 0b/0o/0x prefixed integer" }
  | .unsupportedAtom =>
    { kind := .unsupportedAtom
      message := "Unsupported atom: CalcAtom" }
  | .unsupportedJuxtaposition parts =>
    { kind := .unsupportedJuxtaposition
      message := "Unsupported implicit multiplication"
      received := some (juxtapositionText parts)
      expected := some ("number identifier, number(expr), constant identifier, " ++
        "identifier identifier, or identifier(expr)") }
  | .noValue nodeName =>
    { kind := .emptyResult
      message := "Expression did not return a value"
      received := some nodeName }
  | .unexpectedToken text =>
    { kind := .unexpectedToken
      message := "Unexpected token '" ++ text ++ "'" }
  | .tooDeep limit =>
    { kind := .tooDeep
      message := "Expression too deeply nested (max depth: " ++ limit.repr ++ ")"
      suggestion := some tooDeepSuggestion }
  | .inconvertible typeName =>
    { kind := .typeMismatch
      message := "Cannot convert Python value of type " ++ typeName ++ " to a Calc value"
      expected := some "int, float, bool, str, complex, list or tuple" }
  | .brokenDown breakdown => breakdownDiagnostic breakdown

def kind (cause : Cause) : Kind :=
  cause.diagnostic.kind

end Cause

/-- A cause with the place where it arose, as far as that is known. -/
structure Error where
  cause : Cause
  location : Location := Location.unknown
deriving DecidableEq

namespace Error

def diagnostic (e : Error) : Diagnostic :=
  e.cause.diagnostic.withLocation e.location

/-- The error as seen from an enclosing place, which counts only if none is known yet. -/
def within (place : Location) (e : Error) : Error :=
  { e with location := e.location.orOuter place }

end Error

/-- How an evaluation fails: with an error of the language, or by a breakdown. -/
inductive Fault where
  | error (e : Error)
  | breakdown (b : Breakdown)
deriving DecidableEq

namespace Fault

def ofCause (cause : Cause) : Fault :=
  .error ⟨cause, Location.unknown⟩

/-- A breakdown has no place. -/
def within (place : Location) : Fault → Fault
  | .error e => .error (e.within place)
  | .breakdown b => .breakdown b

/-- The error that a run ends with: a breakdown becomes one, without a place. -/
def toError : Fault → Error
  | .error e => e
  | .breakdown b => ⟨.brokenDown b, Location.unknown⟩

end Fault

end Reckoner
