import Reckoner.Proofs.Tree
import Reckoner.Visitor

set_option autoImplicit false

/-!
The evaluation of parse trees with the depth of a node handed down to it.

Visiting a node gives a value or, for statements, perhaps none; evaluating a node insists on a
value. An error gets the place of the innermost node around it that has one.
-/

namespace Reckoner

namespace Eval

/-- Visits a node at a place and a depth, if the depth is allowed. -/
def enter (s : Settings) (depth : Nat) (place : Location) (step : Run (Option Value)) :
    Run (Option Value) :=
  Run.within place <|
    if s.maxDepth < depth then Run.fail (.tooDeep s.maxDepth)
    else if s.stackLimit < depth then throw (.breakdown .stackExhausted)
    else step

/-- Insists on a value. The error has the place of the node that gave none. -/
def require (place : Location) (form : Form) (step : Run (Option Value)) : Run Value := do
  match ← step with
  | some value => return value
  | none => throw (.error ⟨.noValue form.name, place⟩)

mutual

def visit (s : Settings) (depth : Nat) : Node → Run (Option Value)
  | .mk place form => enter s depth place (dispatch s (depth + 1) place form)

def evaluate (s : Settings) (depth : Nat) : Node → Run Value
  | .mk place form => require place form (enter s depth place (dispatch s (depth + 1) place form))

def evaluateAll (s : Settings) (depth : Nat) : List Node → Run (List Value)
  | [] => return []
  | node :: rest => do
    let value ← evaluate s depth node
    let values ← evaluateAll s depth rest
    return value :: values

def visitAll (s : Settings) (depth : Nat) (last : Option Value) : List Node → Run (Option Value)
  | [] => return last
  | node :: rest => do
    let result ← visit s depth node
    visitAll s depth result rest

def compareAll (s : Settings) (depth : Nat) (left : Value) : List (String × Node) → Run Bool
  | [] => return true
  | (operator, node) :: rest => do
    let right ← evaluate s depth node
    if ← Run.ofExcept (Arith.compareBy s.tolerance operator left right) then
      compareAll s depth right rest
    else
      return false

/-- What a form does at a place, with the parts of it visited at `depth`. -/
def dispatch (s : Settings) (depth : Nat) (place : Location) : Form → Run (Option Value)
  | .program statements => visitAll s depth none statements
  | .statement none => return none
  | .statement (some body) => visit s depth body
  | .define name expr => do
    if ← Run.hasVariable name then
      Run.fail (.duplicateDefinition name false)
    else
      let value ← evaluate s depth expr
      Run.define name value
      return some value
  | .assign name expr => do
    if ← Run.hasVariable name then
      let value ← evaluate s depth expr
      Run.assign name value
      return some value
    else
      Run.fail (.undefinedVariable name false)
  | .equation left right => do
    let a ← evaluate s depth left
    let b ← evaluate s depth right
    return some (.boolean (← Run.ofExcept (Arith.equals s.tolerance a b)))
  | .equationStatement equation => visit s depth equation
  | .print expr => do
    let value ← evaluate s depth expr
    Run.emit (Display.text s.tolerance value)
    return some value
  | .expressionStatement expr => some <$> evaluate s depth expr
  | .or left right => do
    let a ← evaluate s depth left
    if Arith.isTrue s.tolerance a then
      return some (.boolean true)
    else
      return some (.boolean (Arith.isTrue s.tolerance (← evaluate s depth right)))
  | .and left right => do
    let a ← evaluate s depth left
    if Arith.isTrue s.tolerance a then
      return some (.boolean (Arith.isTrue s.tolerance (← evaluate s depth right)))
    else
      return some (.boolean false)
  | .not operand => do
    return some (.boolean (!Arith.isTrueResult s.tolerance (← visit s depth operand)))
  | .comparison first [] => some <$> evaluate s depth first
  | .comparison first (link :: rest) => do
    let left ← evaluate s depth first
    return some (.boolean (← compareAll s depth left (link :: rest)))
  | .arith left operator right => do
    let a ← evaluate s depth left
    let b ← evaluate s depth right
    some <$> Run.ofExcept (arith s.tolerance operator a b)
  | .term left operator right => do
    let a ← evaluate s depth left
    let b ← evaluate s depth right
    some <$> Run.ofExcept (term s.tolerance operator a b)
  | .power base none => some <$> evaluate s depth base
  | .power base (some exponent) => do
    let a ← evaluate s depth base
    let b ← evaluate s depth exponent
    some <$> Run.ofExcept (Arith.power s.tolerance a b)
  | .unary none operand => some <$> evaluate s depth operand
  | .unary (some operator) operand =>
    if operator = "+" then
      some <$> evaluate s depth operand
    else if operator = "-" then do
      let value ← evaluate s depth operand
      some <$> Run.ofExcept (Arith.multiply s.tolerance (.number (-1)) value)
    else
      Run.fail (.unsupportedOperator operator ["+", "-"])
  | .number text => return some (.number (← Run.ofExcept (Literal.number text)))
  | .imaginary text => some <$> Run.ofExcept (Literal.imaginary s.tolerance text)
  | .constant text => some <$> Run.ofExcept (Scope.lookupConstant text)
  | .identifier name => some <$> Run.lookup name
  | .paren expr => some <$> evaluate s depth expr
  | .factorial operand => do
    let value ← evaluate s depth operand
    some <$> Run.ofExcept (Arith.factorial s.tolerance value)
  | .juxtaposition (some number) none [name] none false => do
    let a ← Run.ofExcept (Literal.number number)
    let b ← Run.lookup name
    some <$> Run.ofExcept (Arith.multiply s.tolerance (.number a) b)
  | .juxtaposition (some number) none [] (some group) true => do
    let a ← Run.ofExcept (Literal.number number)
    let b ← evaluate s depth group
    some <$> Run.ofExcept (Arith.multiply s.tolerance (.number a) b)
  | .juxtaposition none (some constant) [name] none false => do
    let form := Form.constant constant.text
    let a ← require constant.location form <| enter s depth constant.location <|
      some <$> Run.ofExcept (Scope.lookupConstant constant.text)
    let b ← Run.lookup name
    some <$> Run.ofExcept (Arith.multiply s.tolerance a b)
  | .juxtaposition none none [left, right] none false => do
    let a ← Run.lookup left
    let b ← Run.lookup right
    some <$> Run.ofExcept (Arith.multiply s.tolerance a b)
  | .juxtaposition none none [name] (some group) true => do
    let a ← Run.lookup name
    let b ← evaluate s depth group
    some <$> Run.ofExcept (Arith.multiply s.tolerance a b)
  | .juxtaposition number constant identifiers _ parenthesized =>
    Run.fail (.unsupportedJuxtaposition
      (juxtapositionParts number constant identifiers parenthesized))
  | .call function arguments => do
    let values ← evaluateAll s depth arguments
    some <$> call s.tolerance function values
  | .argumentList items => return some (.list (← evaluateAll s depth items))
  | .expressionList items => return some (.list (← evaluateAll s depth items))
  | .vector none => return some (.list [])
  | .vector (some items) => some <$> evaluate s depth items
  | .row items => some <$> evaluate s depth items
  | .matrix rows => return some (.list (← evaluateAll s depth rows))
  | .terminal text => return some (.text text)
  | .misplaced text => Run.fail (.unexpectedToken text)
  | .blank => return none
  | .atom => throw (.error ⟨.unsupportedAtom, place⟩)

end

/-- Evaluating a node is visiting it and insisting on a value. -/
theorem evaluate_eq_require (s : Settings) (depth : Nat) (node : Node) :
    evaluate s depth node = require node.location node.form (visit s depth node) := by
  cases node
  rfl

end Eval

end Reckoner
