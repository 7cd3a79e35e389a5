import Reckoner.Proofs.Juxtaposition
import Reckoner.Proofs.Places

set_option autoImplicit false

namespace Reckoner

namespace Form

/-- The part whose value the form hands on, if that is all it does. -/
def wrapped? : Form → Option Node
  | .paren part | .unary none part | .power part none | .comparison part []
  | .expressionStatement part | .row part => some part
  | .unary (some operator) part => if operator = "+" then some part else none
  | _ => none

/-- The parts of a form that have to have a value. -/
def operands : Form → List Node
  | .program _ | .statement _ | .equationStatement _ | .not _ => []
  | form => form.children

theorem mem_children_of_wrapped {form : Form} {part : Node} (wrapped : form.wrapped? = some part) :
    part ∈ form.children := by
  unfold wrapped? at wrapped
  split at wrapped
  all_goals grind [children]

theorem mem_parts_of_child {form : Form} {part : Node} (member : part ∈ form.children) :
    part ∈ form.parts := by
  cases form with
  | juxtaposition number constant names group parenthesized =>
      exact List.mem_append_right _ member
  | _ => exact member

end Form

def Rewriting.unwrapping : Rewriting where
  place place := place
  core node := node.form.wrapped?.getD node
  core_constant _ _ := rfl

namespace Node

/-- The tree without wrappers where values are needed. -/
def stripped (tree : Node) : Node :=
  Rewriting.unwrapping.node tree

/-- Nowhere in the tree does a wrapper stand where a value is needed. -/
def IsBare (tree : Node) : Prop :=
  ∀ node ∈ tree.nodes, ∀ part ∈ node.form.operands, part.form.wrapped? = none

end Node

namespace Rewriting

theorem wrapped?_form (R : Rewriting) (form : Form) :
    (R.form form).wrapped? = form.wrapped?.map R.operand := by
  cases form with
  | statement part | vector part | power _ part | juxtaposition _ _ _ part _ =>
      cases part <;> rfl
  | comparison first rest => cases rest <;> rfl
  | unary operator part =>
      cases operator with
      | none => rfl
      | some operator =>
          simp only [Rewriting.form, Form.wrapped?]
          split <;> rfl
  | _ => rfl

variable {place : Location} {form : Form}

theorem operand_of_wrapped {part : Node} (wrapped : form.wrapped? = some part) :
    unwrapping.operand (.mk place form) = unwrapping.operand part := by
  change ((unwrapping.form form).wrapped?).getD _ = _
  rw [wrapped?_form, wrapped, Option.map_some, Option.getD_some]

theorem operand_of_not_wrapped (own : form.wrapped? = none) :
    unwrapping.operand (.mk place form) = unwrapping.node (.mk place form) := by
  change ((unwrapping.form form).wrapped?).getD _ = _
  rw [wrapped?_form, own, Option.map_none, Option.getD_none]
  rfl

end Rewriting

theorem Run.within_map {α β : Type} (place : Location) (f : α → β) (step : Run α) :
    within place (f <$> step) = f <$> within place step := by
  funext machine
  simp only [within, Functor.map, EStateM.map]
  cases step machine <;> rfl

namespace Eval

variable {s : Settings} {depth lower : Nat}

/-- A wrapper hands on the value of its part. -/
theorem dispatch_of_wrapped {form : Form} {part : Node} (wrapped : form.wrapped? = some part)
    (place : Location) : dispatch s depth place form = some <$> evaluate s depth part := by
  unfold Form.wrapped? at wrapped
  split at wrapped
  all_goals grind [dispatch]

/-- Handing on a value from a place makes no difference but for depth and place. -/
theorem resembles_of_handing_on {excused : Cause → Prop}
    (deep : ∀ cause : Cause, cause.kind = .tooDeep → excused cause) {step other : Run Value}
    (resembles : Run.Resembles excused (fun _ => True) step other) (place : Location)
    (form : Form) :
    Run.Resembles excused (fun _ => True) (require place form (enter s depth place (some <$> step)))
      other := by
  by_cases allowed : Allowed s depth
  · have moved := resembles.within place Location.unknown
    rw [Run.within_unknown] at moved
    rw [enter_of_allowed allowed, Run.within_map, require_some]
    exact moved
  · obtain ⟨fault, kind, fails⟩ := enter_of_not_allowed allowed place (some <$> step)
    refine fun machine => Or.inl ⟨fault, machine, ?_, deep _ kind⟩
    simp only [require, bind, EStateM.bind, fails machine]

theorem unwrapping_preserves (le : lower ≤ depth) (node : Node) :
    Rewriting.unwrapping.Preserves s (·.kind = .tooDeep) depth lower node := by
  induction node using Node.induct_parts generalizing depth lower with
  | step place form ih =>
      have visits := resembles_visit (Or.inr ⟨le, fun _ deep => deep⟩) place
        fun part member => ih part member (Nat.add_le_add_right le 1)
      refine ⟨visits, ?_⟩
      cases wrapped : form.wrapped? with
      | none => exact resembles_evaluate (Rewriting.operand_of_not_wrapped wrapped) visits
      | some part =>
          -- The part stays at a depth that is one greater, in place of the wrapper.
          have inner := (ih part (Form.mem_parts_of_child (Form.mem_children_of_wrapped wrapped))
            (Nat.le_succ_of_le le)).evaluate
          rw [Rewriting.operand_of_wrapped wrapped, evaluate, dispatch_of_wrapped wrapped]
          exact resembles_of_handing_on (fun _ deep => deep) inner place form

end Eval

namespace Rewriting

variable (R : Rewriting)

theorem operands_links (links : List (String × Node)) :
    (R.links links).map Prod.snd = R.operands (links.map Prod.snd) := by
  induction links with
  | nil => rfl
  | cons link rest ih =>
      obtain ⟨operator, part⟩ := link
      rw [Rewriting.links, List.map_cons, List.map_cons, operands, ih]

/-- Where a value was needed, the rewritten form has rewritten operands. -/
theorem operands_form (form : Form) : (R.form form).operands = form.operands.map R.operand := by
  cases form with
  | statement part | vector part | power _ part | juxtaposition _ _ _ part _ => cases part <;> rfl
  | comparison first rest =>
      exact congrArg (R.operand first :: ·) ((R.operands_links rest).trans (R.operands_eq_map _))
  | call _ items | argumentList items | expressionList items | matrix items =>
      exact R.operands_eq_map items
  | _ => rfl

/-- The children of a rewritten form are rewritten children. -/
theorem mem_children_form {form : Form} {part : Node} (member : part ∈ (R.form form).children) :
    ∃ child ∈ form.children, part = R.node child ∨ part = R.operand child := by
  cases form with
  | statement part | vector part | power _ part | juxtaposition _ _ _ part _ =>
      cases part <;> grind [Rewriting.form, Form.children]
  | _ => grind [Rewriting.form, Form.children, operands_links, nodes_eq_map, operands_eq_map]

end Rewriting

theorem Form.mem_children_of_operands {form : Form} {part : Node} (member : part ∈ form.operands) :
    part ∈ form.children := by
  cases form <;> first | exact member | cases member

theorem stripped_bare (node : Node) :
    node.stripped.IsBare ∧ (Rewriting.unwrapping.operand node).IsBare ∧
      (Rewriting.unwrapping.operand node).form.wrapped? = none := by
  induction node using Node.induct with
  | step place form ih =>
      have bare : (Node.mk place form).stripped.IsBare := by
        intro inner inside part needed
        rw [Node.stripped, Rewriting.node, Node.nodes_mk, List.mem_cons, List.mem_flatMap] at inside
        rcases inside with rfl | ⟨child', present, inside⟩
        · rw [Node.form, Rewriting.operands_form] at needed
          obtain ⟨child, operand, rfl⟩ := List.mem_map.mp needed
          exact (ih child (Form.mem_children_of_operands operand)).2.2
        · obtain ⟨child, member, rfl | rfl⟩ := Rewriting.mem_children_form _ present
          · exact (ih child member).1 inner inside part needed
          · exact (ih child member).2.1 inner inside part needed
      refine ⟨bare, ?_⟩
      cases wrapped : form.wrapped? with
      | none =>
          rw [Rewriting.operand_of_not_wrapped wrapped]
          refine ⟨bare, ?_⟩
          rw [Rewriting.node, Node.form, Rewriting.wrapped?_form, wrapped, Option.map_none]
      | some part =>
          rw [Rewriting.operand_of_wrapped wrapped]
          exact (ih part (Form.mem_children_of_wrapped wrapped)).2

/-- Leaving out the wrappers where values are needed leaves none there, and changes nothing for a
tree that does not fail because it is too deep: the result, the lines and the variables are the
same, and so is the fault, but for the place in the report of an error. -/
theorem visit_stripped (tree : Node) :
    tree.stripped.IsBare ∧
    (∀ s depth machine,
      (∀ fault after, Eval.visit s depth tree machine = .error fault after →
        fault.toError.cause.kind ≠ .tooDeep) →
      Ends Fault.DiffersInPlace Eq (fun _ => True) (Eval.visit s depth tree machine)
        (Eval.visit s depth tree.stripped machine)) ∧
    ∀ session : Session,
      (∀ e, (session.run tree).result = .error e → e.cause.kind ≠ .tooDeep) →
      (session.run tree).Matches Error.DiffersInPlace (session.run tree.stripped) := by
  have visits (s : Settings) (depth : Nat) (machine : Machine)
      (shallow : ∀ fault after, Eval.visit s depth tree machine = .error fault after →
        fault.toError.cause.kind ≠ .tooDeep) :
      Ends Fault.DiffersInPlace Eq (fun _ => True) (Eval.visit s depth tree machine)
        (Eval.visit s depth tree.stripped machine) := by
    have resembles := (Eval.unwrapping_preserves (s := s) (Nat.le_refl depth) tree).visit machine
    rcases resembles with ⟨fault, after, failed, deep⟩ | ends
    · exact absurd deep (shallow fault after failed)
    · exact ends.mono (fun _ _ => Fault.SameCause.differsInPlace) fun _ holds => holds
  refine ⟨(stripped_bare tree).1, visits, fun session shallow => ?_⟩
  rw [session.run_eq, session.run_eq]
  refine (session.reset.perform_matches (visits _ 1 _ fun fault after failed => ?_)).toError
  have visited := session.reset.visit_result_of_error failed
  exact shallow fault.toError (Session.run_eq_error.mpr ⟨fault, visited, rfl⟩)

/-- `print(+(a)); not (…)`, where nothing stands in the last parentheses. These are visited only and
stay, and so both trees fail for the same reason. With the limit three the tree is too deep to print
anything, and the bare one is not. -/
theorem visit_stripped_negation :
    let here := Node.mk Location.unknown
    let a := here (.identifier "a")
    let missing := here (.not (here (.paren (here .blank))))
    let signed := here (.unary (some "+") (here (.paren a)))
    let tree := here (.program [here (.print signed), missing])
    let bare := here (.program [here (.print a), missing])
    let session := Session.fresh .standard ⟨⟨[("a", .number 3)]⟩⟩
    let limited := Session.fresh ⟨⟨.standard, 3⟩, 2000⟩ session.scope
    tree.stripped = bare ∧ tree.stripped.IsBare ∧
      (session.run tree).result = .error ⟨.noValue "CalcASTNode", Location.unknown⟩ ∧
      (session.run tree).Matches Error.DiffersInPlace (session.run tree.stripped) ∧
      (session.run bare).printed = ["3"] ∧
      (limited.run tree).printed = [] ∧ (limited.run bare).printed = ["3"] := by
  intro here a missing signed tree bare session limited
  have fails : (session.run tree).result =
      .error ⟨.noValue "CalcASTNode", Location.unknown⟩ := rfl
  have stripped := visit_stripped tree
  refine ⟨rfl, stripped.1, fails, stripped.2.2 session fun e failed => ?_, ?_, ?_, ?_⟩
  · rw [fails] at failed
    cases failed
    exact nofun
  all_goals decide +kernel

end Reckoner
