import Reckoner.Arith.Comparison
import Reckoner.Builtin.Apply
import Reckoner.Display
import Reckoner.Literal
import Reckoner.Run
import Reckoner.Tree

set_option autoImplicit false

namespace Reckoner

namespace Eval

def arith (t : Tolerance) (operator : String) (left right : Value) : Except Fault Value :=
  if operator = "+" then Arith.add t left right
  else if operator = "-" then Arith.subtract t left right
  else .error (.ofCause (.unsupportedOperator operator ["+", "-"]))

def term (t : Tolerance) (operator : String) (left right : Value) : Except Fault Value :=
  if operator = "*" then Arith.multiply t left right
  else if operator = "/" then Arith.divide t left right
  else if operator = "%" then Arith.modulo t left right
  else .error (.ofCause (.unsupportedOperator operator ["*", "/", "%"]))

/-- The value of a call once its arguments are evaluated. A name that is not a function but stands
for a value is multiplied with a single argument. -/
def call (t : Tolerance) (function : String) (arguments : List Value) : Run Value := do
  match Builtin.ofName? function with
  | some f => Run.ofExcept (f.apply t arguments)
  | none =>
    match arguments, ← Run.resolve? function with
    | [argument], some value => Run.ofExcept (Arith.multiply t value argument)
    | _, _ => Run.fail (.unknownFunction function arguments.length)

/-- What a juxtaposition consists of, for the report of one that has no meaning. -/
def juxtapositionParts (number : Option String) (constant : Option Token)
    (identifiers : List String) (parenthesized : Bool) : List String :=
  number.toList ++ (constant.map Token.text).toList ++ identifiers ++
    if parenthesized then ["(...)"] else []

end Eval

def Token.node (token : Token) : Node :=
  .mk token.location (.constant token.text)

/-- What a juxtaposition multiplies: a numeral, a name, or a part of the tree. -/
inductive Factor where
  | numeral (text : String)
  | identifier (name : String)
  | part (node : Node)

namespace Form

/-- The factors of a juxtaposition, from left to right. Only five shapes have a meaning, and in each
of them every other slot is empty. -/
def factors? : Option String → Option Token → List String → Option Node → Bool →
    Option (Factor × Factor)
  | some text, none, [name], none, false => some (.numeral text, .identifier name)
  | some text, none, [], some group, true => some (.numeral text, .part group)
  | none, some token, [name], none, false => some (.part token.node, .identifier name)
  | none, none, [left, right], none, false => some (.identifier left, .identifier right)
  | none, none, [name], some group, true => some (.identifier name, .part group)
  | _, _, _, _, _ => none

end Form

/-- How the steps of a form are carried out: its own ones, and the visits of its parts. -/
structure Visitor (M : Type → Type) where
  own {α : Type} : Run α → M α
  visit : Node → M (Option Value)
  evaluate : Node → M Value

namespace Visitor

section Perform

variable {M : Type → Type} [Monad M] (V : Visitor M)

def visitAll (last : Option Value) : List Node → M (Option Value)
  | [] => return last
  | node :: rest => do
    let result ← V.visit node
    visitAll result rest

def evaluateAll : List Node → M (List Value)
  | [] => return []
  | node :: rest => do
    let value ← V.evaluate node
    let values ← evaluateAll rest
    return value :: values

def compareAll (t : Tolerance) (left : Value) : List (String × Node) → M Bool
  | [] => return true
  | (operator, node) :: rest => do
    let right ← V.evaluate node
    if ← V.own (Run.ofExcept (Arith.compareBy t operator left right)) then
      compareAll t right rest
    else
      return false

def factor : Factor → M Value
  | .numeral text => Value.number <$> V.own (Run.ofExcept (Literal.number text))
  | .identifier name => V.own (Run.lookup name)
  | .part node => V.evaluate node

/-- What a form at a place does, by way of a visitor. -/
def perform (t : Tolerance) (place : Location) : Form → M (Option Value)
  | .program statements => V.visitAll none statements
  | .statement none | .blank => return none
  | .statement (some part) | .equationStatement part => V.visit part
  | .define name expr => do
    if ← V.own (Run.hasVariable name) then
      V.own (Run.fail (.duplicateDefinition name false))
    else
      let value ← V.evaluate expr
      V.own (Run.define name value)
      return some value
  | .assign name expr => do
    if ← V.own (Run.hasVariable name) then
      let value ← V.evaluate expr
      V.own (Run.assign name value)
      return some value
    else
      V.own (Run.fail (.undefinedVariable name false))
  | .equation left right => do
    let a ← V.evaluate left
    let b ← V.evaluate right
    return some (.boolean (← V.own (Run.ofExcept (Arith.equals t a b))))
  | .print expr => do
    let value ← V.evaluate expr
    V.own (Run.emit (Display.text t value))
    return some value
  | .or left right => do
    let a ← V.evaluate left
    if Arith.isTrue t a then
      return some (.boolean true)
    else
      return some (.boolean (Arith.isTrue t (← V.evaluate right)))
  | .and left right => do
    let a ← V.evaluate left
    if Arith.isTrue t a then
      return some (.boolean (Arith.isTrue t (← V.evaluate right)))
    else
      return some (.boolean false)
  | .not operand => do
    return some (.boolean (!Arith.isTrueResult t (← V.visit operand)))
  | .comparison first (link :: rest) => do
    let left ← V.evaluate first
    return some (.boolean (← V.compareAll t left (link :: rest)))
  | .arith left operator right => do
    let a ← V.evaluate left
    let b ← V.evaluate right
    some <$> V.own (Run.ofExcept (Eval.arith t operator a b))
  | .term left operator right => do
    let a ← V.evaluate left
    let b ← V.evaluate right
    some <$> V.own (Run.ofExcept (Eval.term t operator a b))
  | .power base (some exponent) => do
    let a ← V.evaluate base
    let b ← V.evaluate exponent
    some <$> V.own (Run.ofExcept (Arith.power t a b))
  | .unary (some operator) operand =>
    if operator = "+" then
      some <$> V.evaluate operand
    else if operator = "-" then do
      let value ← V.evaluate operand
      some <$> V.own (Run.ofExcept (Arith.multiply t (.number (-1)) value))
    else
      V.own (Run.fail (.unsupportedOperator operator ["+", "-"]))
  | .number text => return some (.number (← V.own (Run.ofExcept (Literal.number text))))
  | .imaginary text => some <$> V.own (Run.ofExcept (Literal.imaginary t text))
  | .constant text => some <$> V.own (Run.ofExcept (Scope.lookupConstant text))
  | .identifier name => some <$> V.own (Run.lookup name)
  | .factorial operand => do
    let value ← V.evaluate operand
    some <$> V.own (Run.ofExcept (Arith.factorial t value))
  | .juxtaposition number constant names group parenthesized =>
    match Form.factors? number constant names group parenthesized with
    | some (left, right) => do
      let a ← V.factor left
      let b ← V.factor right
      some <$> V.own (Run.ofExcept (Arith.multiply t a b))
    | none =>
      V.own (Run.fail (.unsupportedJuxtaposition
        (Eval.juxtapositionParts number constant names parenthesized)))
  | .call function arguments => do
    let values ← V.evaluateAll arguments
    some <$> V.own (Eval.call t function values)
  | .argumentList items | .expressionList items | .matrix items =>
    return some (.list (← V.evaluateAll items))
  | .vector none => return some (.list [])
  | .expressionStatement part | .comparison part [] | .power part none | .unary none part
  | .paren part | .vector (some part) | .row part => some <$> V.evaluate part
  | .terminal text => return some (.text text)
  | .misplaced text => V.own (Run.fail (.unexpectedToken text))
  | .atom => V.own (throw (.error ⟨.unsupportedAtom, place⟩))

end Perform

end Visitor

end Reckoner
