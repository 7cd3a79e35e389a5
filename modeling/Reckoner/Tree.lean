import Reckoner.Diagnostic

set_option autoImplicit false

namespace Reckoner

structure Token where
  location : Location
  text : String
deriving DecidableEq

mutual

/-- A form at a place. Any form may stand in any position, whatever a grammar would allow. -/
inductive Node where
  | mk (location : Location) (form : Form)

inductive Form where
  | program (statements : List Node)
  /-- A statement; an empty one has no body. -/
  | statement (body : Option Node)
  /-- `var name = expr` -/
  | define (name : String) (expr : Node)
  /-- `name = expr` -/
  | assign (name : String) (expr : Node)
  /-- `left = right` as a question -/
  | equation (left right : Node)
  | equationStatement (equation : Node)
  | print (expr : Node)
  | expressionStatement (expr : Node)
  | or (left right : Node)
  | and (left right : Node)
  | not (operand : Node)
  /-- `first`, and further operands, each after an operator -/
  | comparison (first : Node) (rest : List (String × Node))
  /-- `+` or `-` between two operands -/
  | arith (left : Node) (operator : String) (right : Node)
  /-- `*`, `/` or `%` between two operands -/
  | term (left : Node) (operator : String) (right : Node)
  | power (base : Node) (exponent : Option Node)
  /-- A sign, or nothing, before an operand -/
  | unary (operator : Option String) (operand : Node)
  | number (text : String)
  | imaginary (text : String)
  | constant (text : String)
  | identifier (name : String)
  | paren (expr : Node)
  | factorial (operand : Node)
  /-- Factors side by side without an operator; `group` is what stands in the parentheses. -/
  | juxtaposition (number : Option String) (constant : Option Token) (identifiers : List String)
      (group : Option Node) (parenthesized : Bool)
  | call (function : String) (arguments : List Node)
  | argumentList (items : List Node)
  | expressionList (items : List Node)
  | vector (items : Option Node)
  | row (items : Node)
  | matrix (rows : List Node)
  /-- A token that stands for its text -/
  | terminal (text : String)
  /-- A token that has no place in the program -/
  | misplaced (text : String)
  /-- A node of no particular form -/
  | blank
  /-- An atom of no particular form -/
  | atom

end

instance : Inhabited Node := ⟨.mk Location.unknown .blank⟩

namespace Node

def location : Node → Location
  | .mk location _ => location

def form : Node → Form
  | .mk _ form => form

end Node

namespace Form

/-- The name of a form in error reports. -/
def name : Form → String
  | .program _ => "CalcProgram"
  | .statement _ => "CalcStatement"
  | .define _ _ => "CalcDefineStmt"
  | .assign _ _ => "CalcAssignment"
  | .equation _ _ => "CalcEquation"
  | .equationStatement _ => "CalcEquationStmt"
  | .print _ => "CalcPrintStmt"
  | .expressionStatement _ => "CalcExprStmt"
  | .or _ _ => "CalcOrExpr"
  | .and _ _ => "CalcAndExpr"
  | .not _ => "CalcNotExpr"
  | .comparison _ _ => "CalcComparison"
  | .arith _ _ _ => "CalcArith"
  | .term _ _ _ => "CalcTerm"
  | .power _ _ => "CalcFactor"
  | .unary _ _ => "CalcUnary"
  | .number _ => "CalcNumberLiteral"
  | .imaginary _ => "CalcImagLiteral"
  | .constant _ => "CalcConstant"
  | .identifier _ => "CalcIdentifier"
  | .paren _ => "CalcParenExpr"
  | .factorial _ => "CalcFactorial"
  | .juxtaposition _ _ _ _ _ => "CalcImplicitMul"
  | .call _ _ => "CalcFunctionCall"
  | .argumentList _ => "CalcArgList"
  | .expressionList _ => "CalcExprList"
  | .vector _ => "CalcVector"
  | .row _ => "CalcRow"
  | .matrix _ => "CalcMatrix"
  | .terminal _ => "CalcTerminal"
  | .misplaced _ => "CalcErrorNode"
  | .blank => "CalcASTNode"
  | .atom => "CalcAtom"

end Form

end Reckoner
