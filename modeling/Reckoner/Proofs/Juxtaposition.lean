import Reckoner.Proofs.Visitor

set_option autoImplicit false

namespace Reckoner

namespace Location

theorem orOuter_unknown (inner : Location) : inner.orOuter unknown = inner := by
  rw [orOuter, if_pos]
  cases inner.isKnown <;> rfl

theorem unknown_orOuter (outer : Location) :
    unknown.orOuter outer = if outer.isKnown then outer else unknown := by
  unfold orOuter
  cases outer.isKnown <;> rfl

end Location

/-- The node that a factor is, or that stands for it. -/
def Factor.node : Factor → Node
  | .numeral text => .mk Location.unknown (.number text)
  | .identifier name => .mk Location.unknown (.identifier name)
  | .part node => node

namespace Run

variable {α : Type}

/-- An unknown place around a step makes no difference. -/
theorem within_unknown (step : Run α) : within Location.unknown step = step := by
  funext machine
  unfold within
  cases step machine with
  | ok a after => rfl
  | error fault after =>
      cases fault with
      | error e => simp only [Fault.within, Error.within, Location.orOuter_unknown]
      | breakdown b => rfl

end Run

namespace Eval

variable {s : Settings} {depth : Nat}

def Allowed (s : Settings) (depth : Nat) : Prop :=
  (depth : Int) ≤ s.maxDepth ∧ depth ≤ s.stackLimit

instance (s : Settings) (depth : Nat) : Decidable (Allowed s depth) :=
  inferInstanceAs (Decidable (_ ∧ _))

theorem Allowed.outer (allowed : Allowed s (depth + 1)) : Allowed s depth := by
  unfold Allowed at *
  omega

/-- An allowed depth is entered. -/
theorem enter_of_allowed (allowed : Allowed s depth) (place : Location)
    (step : Run (Option Value)) : enter s depth place step = Run.within place step := by
  unfold Allowed at allowed
  unfold enter
  rw [if_neg (by omega), if_neg (by omega)]

/-- There is nothing to insist on where there always is a value. -/
theorem require_some (place : Location) (form : Form) (step : Run Value) :
    require place form (some <$> step) = step := by
  funext machine
  simp only [require, bind_map_left]
  exact congrFun (bind_pure step) machine

/-- A leaf of the tree that stands nowhere is evaluated like a step of its own. -/
theorem evaluate_leaf (allowed : Allowed s depth) {form : Form} {step : Run Value}
    (does : dispatch s (depth + 1) Location.unknown form = some <$> step) :
    evaluate s depth (.mk Location.unknown form) = step := by
  rw [evaluate, enter_of_allowed allowed, Run.within_unknown, does, require_some]

theorem evaluate_number (allowed : Allowed s depth) (text : String) :
    evaluate s depth (.mk Location.unknown (.number text)) =
      Value.number <$> Run.ofExcept (Literal.number text) := by
  apply evaluate_leaf allowed
  simp only [dispatch, map_eq_pure_bind, bind_assoc, pure_bind]

theorem evaluate_identifier (allowed : Allowed s depth) (name : String) :
    evaluate s depth (.mk Location.unknown (.identifier name)) = Run.lookup name :=
  evaluate_leaf allowed rfl

/-- A factor that is no node of the tree is evaluated as if it were one that stands nowhere. -/
theorem evaluate_factor (allowed : Allowed s depth) (factor : Factor) :
    evaluate s depth factor.node = (visitor s depth).factor factor := by
  cases factor with
  | numeral text => exact evaluate_number allowed text
  | identifier name => exact evaluate_identifier allowed name
  | part node => rfl

/-- At a depth that leaves room for one more level, a juxtaposition with factors is visited like
their product at the same place: the outcomes are the same from every machine, with all of a fault,
all lines and all variables. A juxtaposition of any other shape is refused, at its place if that is
known, and the machine stays as it is. -/
theorem visit_juxtaposition (allowed : Allowed s (depth + 1)) (place : Location)
    (number : Option String) (constant : Option Token) (names : List String) (group : Option Node)
    (parenthesized : Bool) :
    match Form.factors? number constant names group parenthesized with
    | some (left, right) =>
      visit s depth (.mk place (.juxtaposition number constant names group parenthesized)) =
        visit s depth (.mk place (.term left.node "*" right.node))
    | none =>
      ∀ machine,
        visit s depth (.mk place (.juxtaposition number constant names group parenthesized))
            machine =
          .error (.error
            { cause := .unsupportedJuxtaposition
                (juxtapositionParts number constant names parenthesized)
              location := if place.isKnown then place else Location.unknown }) machine := by
  -- The evaluator takes the factors of a juxtaposition as it takes the operands of a product.
  have does := dispatch_juxtaposition s (depth + 1) place number constant names group parenthesized
  rw [Visitor.perform] at does
  split
  · rename_i left right factors
    rw [factors] at does
    rw [visit, visit, does, dispatch, evaluate_factor allowed, evaluate_factor allowed]
    rfl
  · rename_i factors
    intro machine
    rw [factors] at does
    rw [visit, enter_of_allowed allowed.outer, does, ← Location.unknown_orOuter]
    rfl

/-- `a (a = 5)` takes the value of `a` before the assignment, like `a * (a = 5)`; `2 pi a` is
refused. -/
theorem visit_juxtaposition_assigning :
    let here := Node.mk ⟨some 1, none⟩
    let group := here (.assign "a" (here (.number "5")))
    let machine : Machine := ⟨⟨⟨[("a", .number 3)]⟩⟩, []⟩
    Allowed .standard 2 ∧
      visit .standard 1 (here (.juxtaposition none none ["a"] (some group) true)) =
        visit .standard 1 (here (.term (.mk Location.unknown (.identifier "a")) "*" group)) ∧
      visit .standard 1 (here (.juxtaposition (some "2") (some ⟨Location.unknown, "pi"⟩) ["a"] none
        false)) machine =
        .error (.error ⟨.unsupportedJuxtaposition ["2", "pi", "a"], ⟨some 1, none⟩⟩) machine := by
  intro here group machine
  have allowed : Allowed .standard 2 := by decide
  refine ⟨allowed, ?_, ?_⟩
  · exact visit_juxtaposition allowed _ none none ["a"] (some group) true
  · exact visit_juxtaposition allowed _ (some "2") (some ⟨Location.unknown, "pi"⟩) ["a"] none false
      machine

end Eval

end Reckoner
