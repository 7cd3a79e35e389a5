set_option autoImplicit false

namespace Reckoner

/-- A place in the source, as far as it is known. -/
structure Location where
  line : Option Int
  column : Option Int
deriving DecidableEq

namespace Location

def unknown : Location := ⟨none, none⟩

def isKnown (place : Location) : Bool := place.line.isSome

/-- The inner place if it names a line, else the outer one if that does. -/
def orOuter (inner outer : Location) : Location :=
  if inner.isKnown || !outer.isKnown then inner else outer

end Location

inductive Kind where
  | general
  | evaluation
  | undefinedVariable
  | duplicateDefinition
  | unknownIdentifier
  | unknownConstant
  | unknownFunction
  | arityMismatch
  | typeMismatch
  | divisionByZero
  | moduloByZero
  | complexExponent
  | complexBase
  | invalidFactorial
  | invalidLogBase
  | unsupportedOperator
  | unsupportedAtom
  | unsupportedJuxtaposition
  | emptyResult
  | unexpectedToken
  | tooDeep
deriving DecidableEq

def Kind.name : Kind → String
  | .general => "CalcError"
  | .evaluation => "EvalError"
  | .undefinedVariable => "UndefinedVariable"
  | .duplicateDefinition => "DuplicateDefinition"
  | .unknownIdentifier => "UnknownIdentifier"
  | .unknownConstant => "UnknownConstant"
  | .unknownFunction => "UnknownFunction"
  | .arityMismatch => "ArityMismatch"
  | .typeMismatch => "TypeMismatch"
  | .divisionByZero => "DivisionByZero"
  | .moduloByZero => "ModuloByZero"
  | .complexExponent => "ComplexExponentUnsupported"
  | .complexBase => "NonIntegerComplexPowerUnsupported"
  | .invalidFactorial => "InvalidFactorialArgument"
  | .invalidLogBase => "InvalidLogBase"
  | .unsupportedOperator => "UnsupportedOperator"
  | .unsupportedAtom => "UnsupportedAtom"
  | .unsupportedJuxtaposition => "UnsupportedImplicitMultiplication"
  | .emptyResult => "EmptyExpressionResult"
  | .unexpectedToken => "UnexpectedToken"
  | .tooDeep => "MaxDepthExceeded"

/-- What an error report says. A detail may be absent. -/
structure Details where
  kind : Kind
  message : String
  context : Option String := none
  expected : Option String := none
  received : Option String := none
  suggestion : Option String := none
  usage : Option String := none
  location : Location := Location.unknown
deriving DecidableEq

namespace Diagnostic

/-- The line that gives the place; a column alone is no place. -/
def locationLine : Location → List String
  | ⟨none, _⟩ => []
  | ⟨some line, none⟩ => ["Location: line " ++ line.repr]
  | ⟨some line, some column⟩ => ["Location: line " ++ line.repr ++ ", column " ++ column.repr]

/-- The line of a detail; an empty one is left out like an absent one. -/
def detailLine (label : String) : Option String → List String
  | none => []
  | some text => if text.isEmpty then [] else [label ++ ": " ++ text]

end Diagnostic

namespace Details

open Diagnostic (locationLine detailLine)

def lines (d : Details) : List String :=
  ["Error: " ++ d.message] ++ locationLine d.location ++ detailLine "Received" d.received ++
    detailLine "Expected" d.expected ++ detailLine "Context" d.context ++
    detailLine "Suggestion" d.suggestion ++ detailLine "Example" d.usage

def rendering (d : Details) : String :=
  "\n".intercalate d.lines

end Details

/-- An error report keeps the text that was written when it was made. -/
structure Diagnostic extends Details where
  text : String := toDetails.rendering
deriving DecidableEq

namespace Diagnostic

/-- The text is that of what the report says now. -/
def Coherent (d : Diagnostic) : Prop :=
  d.text = d.rendering

/-- Gives the report another place, and writes its text anew. -/
def withLocation (d : Diagnostic) (place : Location) : Diagnostic :=
  { toDetails := { d.toDetails with location := place } }

/-- The report as seen from an enclosing place, which counts only if none is known yet. -/
def attach (d : Diagnostic) (place : Location) : Diagnostic :=
  if d.location.isKnown || !place.isKnown then d else d.withLocation place

theorem coherent_withLocation (d : Diagnostic) (place : Location) :
    (d.withLocation place).Coherent :=
  rfl

end Diagnostic

end Reckoner
