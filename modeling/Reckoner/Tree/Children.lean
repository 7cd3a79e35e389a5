import Reckoner.Tree

set_option autoImplicit false

namespace Reckoner

/-- The nodes that a form is made of, from left to right. -/
def Form.children : Form → List Node
  | .program statements => statements
  | .statement body => body.toList
  | .define _ expr | .assign _ expr => [expr]
  | .equation left right => [left, right]
  | .equationStatement question => [question]
  | .print expr | .expressionStatement expr => [expr]
  | .or left right | .and left right => [left, right]
  | .not operand => [operand]
  | .comparison first rest => first :: rest.map Prod.snd
  | .arith left _ right | .term left _ right => [left, right]
  | .power base exponent => base :: exponent.toList
  | .unary _ operand => [operand]
  | .number _ | .imaginary _ | .constant _ | .identifier _ => []
  | .paren expr => [expr]
  | .factorial operand => [operand]
  | .juxtaposition _ _ _ group _ => group.toList
  | .call _ arguments => arguments
  | .argumentList items | .expressionList items => items
  | .vector items => items.toList
  | .row items => [items]
  | .matrix rows => rows
  | .terminal _ | .misplaced _ | .blank | .atom => []

/-- Induction over trees by their parts. -/
theorem Node.induct {P : Node → Prop}
    (step : ∀ place form, (∀ child ∈ form.children, P child) → P (.mk place form)) (node : Node) :
    P node := by
  refine @Node.rec P (fun form => ∀ child ∈ form.children, P child)
    (fun nodes => ∀ child ∈ nodes, P child) (fun node => ∀ child ∈ node, P child)
    (fun links => ∀ child ∈ links.map Prod.snd, P child) (fun link => P link.2) step
    ?_ ?_ ?_ ?_ ?_ ?_ ?_ ?_ ?_ ?_ ?_ ?_ ?_ ?_ ?_ ?_ ?_ ?_ ?_ ?_
    ?_ ?_ ?_ ?_ ?_ ?_ ?_ ?_ ?_ ?_ ?_ ?_ ?_ ?_ ?_ ?_ ?_ ?_ ?_ ?_ node
  all_goals grind [Form.children]

end Reckoner
