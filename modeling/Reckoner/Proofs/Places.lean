import Reckoner.Proofs.Discipline
import Reckoner.Proofs.Rewriting

set_option autoImplicit false

namespace Reckoner

/-- Forgets where nodes stand. -/
def Rewriting.unplacing : Rewriting where
  place _ := Location.unknown
  core node := node
  core_constant _ _ := rfl

/-- The tree without its places. Trees that differ only in places are the same without them. -/
def Node.unplaced (tree : Node) : Node :=
  Rewriting.unplacing.node tree

theorem Rewriting.operand_unplacing (node : Node) : unplacing.operand node = node.unplaced :=
  unplacing.operand_eq_core node

theorem unplacing_preserves (s : Settings) {excused : Cause → Prop} {depth lower : Nat}
    (level : Eval.Excuses excused depth lower) (node : Node) :
    Rewriting.unplacing.Preserves s excused depth lower node := by
  induction node using Node.induct_parts generalizing depth lower with
  | step place form ih =>
      have visits := Eval.resembles_visit level place fun part member => ih part member level.succ
      exact ⟨visits, Eval.resembles_evaluate (Rewriting.operand_unplacing _) visits⟩

theorem visit_unplaced (s : Settings) (depth : Nat) (node : Node) :
    Run.Resembles (fun _ => False) (fun _ => True) (Eval.visit s depth node)
      (Eval.visit s depth node.unplaced) :=
  (unplacing_preserves s (Or.inl rfl) node).visit

theorem evaluate_unplaced (s : Settings) (depth : Nat) (node : Node) :
    Run.Resembles (fun _ => False) (fun _ => True) (Eval.evaluate s depth node)
      (Eval.evaluate s depth node.unplaced) :=
  Rewriting.operand_unplacing node ▸ (unplacing_preserves s (Or.inl rfl) node).evaluate

/-- A step resembles another one if both resemble the same third one, the other without any
excuse. -/
theorem Run.Resembles.meet {α : Type} {excused : Cause → Prop} {good : α → Prop}
    {step other third : Run α} (first : Resembles excused good step third)
    (second : Resembles (fun _ => False) good other third) : Resembles excused good step other := by
  intro machine
  refine (first machine).imp_right fun ends => ?_
  obtain ⟨_, _, _, excused⟩ | ends' := second machine
  · exact excused.elim
  generalize step machine = outcome, other machine = another, third machine = common at ends ends' ⊢
  cases ends with
  | ok holds same =>
      cases ends' with
      | ok _ same' => exact .ok holds (same.trans same'.symm)
  | error alike same =>
      cases ends' with
      | error alike' same' =>
          refine .error ?_ (same.trans same'.symm)
          cases alike <;> cases alike'
          · exact .error _ _ _
          · exact .breakdown _

/-- Steps that resemble the same third one without any excuse end alike. -/
theorem Run.Resembles.join {α : Type} {good : α → Prop} {step other third : Run α}
    (first : Resembles (fun _ => False) good step third)
    (second : Resembles (fun _ => False) good other third) (machine : Machine) :
    Ends Fault.DiffersInPlace Eq good (step machine) (other machine) := by
  obtain ⟨_, _, _, excused⟩ | ends := first.meet second machine
  · exact excused.elim
  · exact ends.mono (fun _ _ alike => alike.differsInPlace) fun _ holds => holds

/-- A node is evaluated deeper down as it is further up, unless it is too deep there. -/
theorem evaluate_below (s : Settings) {depth lower : Nat} (le : lower ≤ depth) (node : Node) :
    Run.Resembles (·.kind = .tooDeep) (fun _ => True) (Eval.evaluate s depth node)
      (Eval.evaluate s lower node) := by
  have below := (unplacing_preserves s (Or.inr ⟨le, fun _ deep => deep⟩) node).evaluate
  rw [Rewriting.operand_unplacing] at below
  exact below.meet (evaluate_unplaced s lower node)

/-- The same result or errors that belong together, and the same session and lines. -/
inductive Outcome.Matches {ε α : Type} (errors : ε → ε → Prop) :
    Outcome ε α → Outcome ε α → Prop
  | ok (a : α) (session : Session) (printed : List String) :
      Matches errors ⟨.ok a, session, printed⟩ ⟨.ok a, session, printed⟩
  | error {e other : ε} (session : Session) (printed : List String) :
      errors e other → Matches errors ⟨.error e, session, printed⟩ ⟨.error other, session, printed⟩

theorem Session.perform_matches {α : Type} {faults : Fault → Fault → Prop} {good : α → Prop}
    {step other : Run α} (session : Session)
    (ends : Ends faults Eq good (step ⟨session.scope, []⟩) (other ⟨session.scope, []⟩)) :
    (session.perform (.ofRun step)).Matches faults (session.perform (.ofRun other)) := by
  rw [perform_ofRun, perform_ofRun]
  generalize step ⟨session.scope, []⟩ = outcome, other ⟨session.scope, []⟩ = another at ends ⊢
  cases ends with
  | ok _ same =>
      subst same
      exact .ok _ _ _
  | error together same =>
      subst same
      exact .error _ _ together

theorem Outcome.Matches.toError {α : Type} {outcome other : Outcome Fault α}
    (same : outcome.Matches Fault.DiffersInPlace other) :
    (outcome.mapError Fault.toError).Matches Error.DiffersInPlace
      (other.mapError Fault.toError) := by
  cases same with
  | ok a session printed => exact .ok a session printed
  | error session printed differs => exact .error session printed differs.toError

/-- Trees that differ only in places are visited, evaluated and run alike. The results, the lines
and the variables are the same, and so are the breakdowns; the reports of errors differ at most in
the place and in the line of the text that gives it. -/
theorem evaluation_ignores_places {tree other : Node} (same : tree.unplaced = other.unplaced) :
    (∀ s depth machine, Ends Fault.DiffersInPlace Eq (fun _ => True)
      (Eval.visit s depth tree machine) (Eval.visit s depth other machine)) ∧
    (∀ s depth machine, Ends Fault.DiffersInPlace Eq (fun _ => True)
      (Eval.evaluate s depth tree machine) (Eval.evaluate s depth other machine)) ∧
    ∀ session : Session, (session.run tree).Matches Error.DiffersInPlace (session.run other) := by
  have visits (s : Settings) (depth : Nat) :=
    (visit_unplaced s depth tree).join (same ▸ visit_unplaced s depth other)
  have evaluates (s : Settings) (depth : Nat) :=
    (evaluate_unplaced s depth tree).join (same ▸ evaluate_unplaced s depth other)
  refine ⟨visits, evaluates, fun session => ?_⟩
  rw [session.run_eq, session.run_eq]
  exact (session.reset.perform_matches (visits _ 1 _)).toError

/-- `print(1); print(x)`, once with places and once without: both print `1` and fail for the same
reason, one of them somewhere. -/
theorem evaluation_ignores_places_unknown :
    let program (first second third : Location) := Node.mk first (.program
      [.mk Location.unknown (.print (.mk first (.number "1"))),
        .mk second (.print (.mk third (.identifier "x")))])
    let tree := program ⟨some 1, some 1⟩ ⟨some 2, none⟩ ⟨some 2, some 7⟩
    let other := program Location.unknown Location.unknown Location.unknown
    let session := Session.fresh .standard ⟨.empty⟩
    let cause := Cause.unknownIdentifier "x" ["pi", "e"]
    tree.unplaced = other.unplaced ∧
      (session.run tree) = ⟨.error ⟨cause, ⟨some 2, some 7⟩⟩, session, ["1"]⟩ ∧
      (session.run other) = ⟨.error ⟨cause, Location.unknown⟩, session, ["1"]⟩ ∧
      (session.run tree).Matches Error.DiffersInPlace (session.run other) := by
  intro program tree other session cause
  have same : tree.unplaced = other.unplaced := rfl
  exact ⟨same, rfl, rfl, (evaluation_ignores_places same).2.2 session⟩

end Reckoner
