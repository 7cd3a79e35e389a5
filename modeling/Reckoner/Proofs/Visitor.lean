import Reckoner.Proofs.Eval

set_option autoImplicit false

namespace Reckoner

/-- The factor is taken from a numeral, from names or from parts. -/
def Factor.TakenFrom (number : Option String) (names : List String) (parts : List Node) :
    Factor → Prop
  | .numeral text => text ∈ number
  | .identifier name => name ∈ names
  | .part node => node ∈ parts

namespace Form

/-- The parts of a form that can be visited: its children, and the constant of a juxtaposition. -/
def parts : Form → List Node
  | .juxtaposition _ token _ group _ => (token.map Token.node).toList ++ group.toList
  | form => form.children

/-- A part that is no child is the token of a constant. -/
theorem child_or_token_of_mem_parts {form : Form} {part : Node} (member : part ∈ form.parts) :
    part ∈ form.children ∨ ∃ token : Token, 0 < form.tokenHeight ∧ part = token.node := by
  cases form with
  | juxtaposition number token names group parenthesized =>
      cases token with
      | none => exact Or.inl (by simpa [parts, children] using member)
      | some token =>
          rcases List.mem_cons.mp member with rfl | inside
          · exact Or.inr ⟨token, Nat.one_pos, rfl⟩
          · exact Or.inl inside
  | _ => exact Or.inl member

variable {number : Option String} {constant : Option Token} {names : List String}
  {group : Option Node} {parenthesized : Bool}

/-- The factors are what stands in the slots. -/
theorem factors?_takenFrom {left right : Factor}
    (factors : factors? number constant names group parenthesized = some (left, right)) :
    left.TakenFrom number names (parts (.juxtaposition number constant names group parenthesized)) ∧
      right.TakenFrom number names
        (parts (.juxtaposition number constant names group parenthesized)) := by
  unfold factors? at factors
  split at factors <;> cases factors <;> simp [Factor.TakenFrom, parts]

end Form

namespace Eval

/-- The visitor that carries out every step, with the parts of a form at `depth`. -/
def visitor (s : Settings) (depth : Nat) : Visitor Run where
  own step := step
  visit := visit s depth
  evaluate := evaluate s depth

variable (s : Settings) (depth : Nat)

theorem visitAll_eq_visitor (nodes : List Node) (last : Option Value) :
    visitAll s depth last nodes = (visitor s depth).visitAll last nodes := by
  induction nodes generalizing last with
  | nil => rfl
  | cons node rest ih =>
      rw [visitAll, Visitor.visitAll]
      exact congrArg _ (funext fun result => ih result)

theorem evaluateAll_eq_visitor (nodes : List Node) :
    evaluateAll s depth nodes = (visitor s depth).evaluateAll nodes := by
  induction nodes with
  | nil => rfl
  | cons node rest ih =>
      rw [evaluateAll, Visitor.evaluateAll, ih]
      rfl

theorem compareAll_eq_visitor (links : List (String × Node)) (left : Value) :
    compareAll s depth left links = (visitor s depth).compareAll s.tolerance left links := by
  induction links generalizing left with
  | nil => rfl
  | cons link rest ih =>
      obtain ⟨operator, node⟩ := link
      rw [compareAll, Visitor.compareAll]
      simp only [ih]
      rfl

/-- A juxtaposition multiplies its factors, if it has any. -/
theorem dispatch_juxtaposition (place : Location) (number : Option String)
    (constant : Option Token) (names : List String) (group : Option Node) (parenthesized : Bool) :
    dispatch s depth place (.juxtaposition number constant names group parenthesized) =
      (visitor s depth).perform s.tolerance place
        (.juxtaposition number constant names group parenthesized) := by
  rw [Visitor.perform]
  fun_cases Form.factors? number constant names group parenthesized with
  | case1 text name => simp only [dispatch, Visitor.factor, visitor, bind_map_left]
  | case2 text group => simp only [dispatch, Visitor.factor, visitor, bind_map_left]
  | case3 token name => rfl
  | case4 left right => rfl
  | case5 name group => rfl
  | case6 number constant names group parenthesized =>
      rw [dispatch]
      · rfl
      all_goals assumption

/-- The evaluator does what a form does by way of its visitor. -/
theorem dispatch_eq_perform (place : Location) (form : Form) :
    dispatch s depth place form = (visitor s depth).perform s.tolerance place form := by
  cases form with
  | program statements => exact visitAll_eq_visitor s depth statements none
  | comparison first rest =>
      cases rest with
      | nil => rfl
      | cons link rest =>
          simp only [dispatch, compareAll_eq_visitor]
          rfl
  | juxtaposition number constant names group parenthesized =>
      exact dispatch_juxtaposition s depth place number constant names group parenthesized
  | call function arguments =>
      simp only [dispatch, evaluateAll_eq_visitor]
      rfl
  | argumentList items | expressionList items | matrix items =>
      simp only [dispatch, evaluateAll_eq_visitor]
      rfl
  | statement part | vector part | power _ part | unary part _ => cases part <;> rfl
  | _ => rfl

end Eval

end Reckoner
