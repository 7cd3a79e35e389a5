import Reckoner.Proofs.Depth
import Reckoner.Proofs.Frame
import Reckoner.Proofs.History
import Reckoner.Proofs.Rewriting

set_option autoImplicit false

/-!
Definitions and assignments take effect at one point. Whether the name may be bound is looked up
before the expression is evaluated and again afterwards, and only then is the name bound. The second
look-up finds something else only where the expression itself defined the name, so an assignment
that has a value always succeeds.
-/

namespace Reckoner

/-- The statements that bind a name to the value of an expression. -/
inductive Binder where
  | define
  | assign

namespace Binder

def form : Binder → String → Node → Form
  | .define => .define
  | .assign => .assign

def write : Binder → String → Value → Write
  | .define => .define
  | .assign => .assign

/-- Whether the name has to be bound; if not, it has to be free. -/
def needsBound : Binder → Bool
  | .define => false
  | .assign => true

/-- Why the statement fails otherwise. The report has an example if it does so at the second look-up
only. -/
def refusal : Binder → String → Bool → Cause
  | .define => .duplicateDefinition
  | .assign => .undefinedVariable

theorem step_write (b : Binder) (name : String) (v : Value) (machine : Machine) :
    (b.write name v).step machine =
      if machine.scope.hasVariable name = b.needsBound then
        .ok () { machine with scope := machine.scope.bind name v }
      else
        .error (.ofCause (b.refusal name true)) machine := by
  rw [Write.step_eq]
  cases b <;> rfl

end Binder

namespace Eval

variable {s : Settings} {depth : Nat} {name : String} {expr : Node} {machine after : Machine}
  {v : Value}

theorem dispatch_binder (b : Binder) (place : Location) :
    dispatch s depth place (b.form name expr) machine =
      if machine.scope.hasVariable name = b.needsBound then
        (do
          let v ← evaluate s depth expr
          (b.write name v).step
          return some v : Run (Option Value)) machine
      else
        .error (.ofCause (b.refusal name false)) machine := by
  have looks (next : Bool → Run (Option Value)) :
      (Run.hasVariable name >>= next) machine = next (machine.scope.hasVariable name) machine := rfl
  cases b with
  | define =>
      rw [Binder.form, dispatch, looks]
      cases machine.scope.hasVariable name <;> rfl
  | assign =>
      rw [Binder.form, dispatch, looks]
      cases machine.scope.hasVariable name <;> rfl

/-- The two look-ups of a statement that binds a name, before and after its expression. -/
theorem visit_binder (allowed : Allowed s depth) (b : Binder) (place : Location) :
    visit s depth (.mk place (b.form name expr)) machine =
      if machine.scope.hasVariable name = b.needsBound then
        match evaluate s (depth + 1) expr machine with
        | .error fault after => .error (fault.within place) after
        | .ok v after =>
          if after.scope.hasVariable name = b.needsBound then
            .ok (some v) { after with scope := after.scope.bind name v }
          else
            .error ((Fault.ofCause (b.refusal name true)).within place) after
      else
        .error ((Fault.ofCause (b.refusal name false)).within place) machine := by
  rw [visit, enter_of_allowed allowed, Run.within, dispatch_binder]
  by_cases permitted : machine.scope.hasVariable name = b.needsBound
  · rw [if_pos permitted, if_pos permitted]
    cases outcome : evaluate s (depth + 1) expr machine with
    | error fault after => rw [Run.bind_of_error outcome]
    | ok v after =>
        have written := b.step_write name v after
        rw [Run.bind_of_ok outcome]
        dsimp only
        by_cases still : after.scope.hasVariable name = b.needsBound
        · rw [if_pos still] at written ⊢
          rw [Run.bind_of_ok written]
          rfl
        · rw [if_neg still] at written ⊢
          rw [Run.bind_of_error written]
  · rw [if_neg permitted, if_neg permitted]

/-- A name that may not be bound is refused, whatever the expression is. -/
theorem visit_binder_refused (allowed : Allowed s depth) (b : Binder) (place : Location)
    (refused : machine.scope.hasVariable name ≠ b.needsBound) :
    visit s depth (.mk place (b.form name expr)) machine =
      .error ((Fault.ofCause (b.refusal name false)).within place) machine := by
  rw [visit_binder allowed, if_neg refused]

/-- The failure of the expression is the failure of the statement. -/
theorem visit_binder_of_error (allowed : Allowed s depth) (b : Binder) (place : Location)
    (permitted : machine.scope.hasVariable name = b.needsBound) {fault : Fault}
    (outcome : evaluate s (depth + 1) expr machine = .error fault after) :
    visit s depth (.mk place (b.form name expr)) machine = .error (fault.within place) after := by
  rw [visit_binder allowed, if_pos permitted, outcome]

/-- The name is bound to the value of the expression if it still may be. -/
theorem visit_binder_of_ok (allowed : Allowed s depth) (b : Binder) (place : Location)
    (permitted : machine.scope.hasVariable name = b.needsBound)
    (outcome : evaluate s (depth + 1) expr machine = .ok v after)
    (still : after.scope.hasVariable name = b.needsBound) :
    visit s depth (.mk place (b.form name expr)) machine =
      .ok (some v) { after with scope := after.scope.bind name v } := by
  rw [visit_binder allowed, if_pos permitted, outcome]
  exact if_pos still

/-- If it no longer may be, the statement fails, and what the expression did stays done. -/
theorem visit_binder_overtaken (allowed : Allowed s depth) (b : Binder) (place : Location)
    (permitted : machine.scope.hasVariable name = b.needsBound)
    (outcome : evaluate s (depth + 1) expr machine = .ok v after)
    (overtaken : after.scope.hasVariable name ≠ b.needsBound) :
    visit s depth (.mk place (b.form name expr)) machine =
      .error ((Fault.ofCause (b.refusal name true)).within place) after := by
  rw [visit_binder allowed, if_pos permitted, outcome]
  exact if_neg overtaken

/-- What evaluating an expression leaves behind is within the frame of the expression. -/
theorem frame_of_evaluate (outcome : evaluate s depth expr machine = .ok v after) :
    Frame expr machine after := by
  have frame := evaluate_frame s depth expr machine
  rwa [Run.after_of_ok outcome] at frame

end Eval

/-- The machine `after` is the machine `before` with a name bound to a value. -/
structure Machine.Binds (name : String) (v : Value) (before after : Machine) : Prop where
  printed : after.printed = before.printed
  value : after.scope.bindings.get? name = some v
  others : ∀ other, other ≠ name →
    after.scope.bindings.get? other = before.scope.bindings.get? other

theorem Machine.binds_bind (machine : Machine) (name : String) (v : Value) :
    Binds name v machine { machine with scope := machine.scope.bind name v } where
  printed := rfl
  value := by rw [Scope.bind, Bindings.get?_insert, if_pos rfl]
  others other distinct := by rw [Scope.bind, Bindings.get?_insert, if_neg distinct]

/-- A variable that is bound again keeps its place, and a new one comes last. -/
theorem Scope.names_bind (scope : Scope) (name : String) (v : Value) :
    (scope.bind name v).bindings.names =
      if scope.hasVariable name then scope.bindings.names else scope.bindings.names ++ [name] := by
  rw [bind, Bindings.names_insert]
  simp only [hasVariable_iff]

namespace Eval

/-- A statement that binds a name takes effect at one point, at an allowed depth. A definition of a
bound name and an assignment to a free one fail before the expression is evaluated. Otherwise the
expression is evaluated, and if it fails, the statement has done nothing else. If it has a value, an
assignment succeeds and changes the value in its place; a definition makes a new variable, the last
one, or fails exactly if the name is bound by now, which the expression itself has done. At a depth
that is not allowed nothing happens at all. -/
theorem binder_commits_once (s : Settings) (depth : Nat) (place : Location) (name : String)
    (expr : Node) (machine : Machine) :
    let define := visit s depth (.mk place (.define name expr)) machine
    let assign := visit s depth (.mk place (.assign name expr)) machine
    let evaluation := evaluate s (depth + 1) expr machine
    let failure (cause : Cause) (after : Machine) : EStateM.Result Fault Machine (Option Value) :=
      .error ((Fault.ofCause cause).within place) after
    (Allowed s depth →
      (machine.scope.hasVariable name = true →
        define = failure (.duplicateDefinition name false) machine ∧
        (∀ fault after, evaluation = .error fault after →
          assign = .error (fault.within place) after) ∧
        ∀ v after, evaluation = .ok v after →
          ∃ next, assign = .ok (some v) next ∧ after.scope.assign name v = .ok next.scope ∧
            Machine.Binds name v after next ∧
            next.scope.bindings.names = after.scope.bindings.names) ∧
      (machine.scope.hasVariable name = false →
        assign = failure (.undefinedVariable name false) machine ∧
        (∀ fault after, evaluation = .error fault after →
          define = .error (fault.within place) after) ∧
        ∀ v after, evaluation = .ok v after →
          (after.scope.hasVariable name = true →
            define = failure (.duplicateDefinition name true) after ∧ expr.Defines name) ∧
          (after.scope.hasVariable name = false →
            ∃ next, define = .ok (some v) next ∧ Machine.Binds name v after next ∧
              next.scope.bindings.names = after.scope.bindings.names ++ [name]))) ∧
    (¬ Allowed s depth →
      (∃ fault : Fault, fault.toError.cause.kind = .tooDeep ∧ define = .error fault machine) ∧
      ∃ fault : Fault, fault.toError.cause.kind = .tooDeep ∧ assign = .error fault machine) := by
  intro define assign evaluation failure
  refine ⟨fun allowed => ⟨fun bound => ⟨?_, ?_, ?_⟩, fun free => ⟨?_, ?_, ?_⟩⟩, fun beyond => ?_⟩
  · exact visit_binder_refused allowed .define place (bound.trans_ne Bool.false_ne_true.symm)
  · intro fault after outcome
    exact visit_binder_of_error allowed .assign place bound outcome
  · intro v after outcome
    -- No tree takes a variable away, so the second look-up finds what the first one found.
    have still := (frame_of_evaluate outcome).hasVariable bound
    refine ⟨_, visit_binder_of_ok allowed .assign place bound outcome still, ?_,
      after.binds_bind name v, ?_⟩
    · exact if_pos still
    · exact (after.scope.names_bind name v).trans (if_pos still)
  · exact visit_binder_refused allowed .assign place (free.trans_ne Bool.false_ne_true)
  · intro fault after outcome
    exact visit_binder_of_error allowed .define place free outcome
  · intro v after outcome
    refine ⟨fun overtaken => ⟨?_, (frame_of_evaluate outcome).defines free overtaken⟩,
      fun still => ⟨_, visit_binder_of_ok allowed .define place free outcome still,
        after.binds_bind name v, ?_⟩⟩
    · exact visit_binder_overtaken allowed .define place free outcome
        (overtaken.trans_ne Bool.false_ne_true.symm)
    · rw [Scope.names_bind, if_neg (still.trans_ne Bool.false_ne_true)]
  · obtain ⟨fault, deep, fails⟩ := enter_of_not_allowed beyond place
      (dispatch s (depth + 1) place (.define name expr))
    obtain ⟨other, deep', fails'⟩ := enter_of_not_allowed beyond place
      (dispatch s (depth + 1) place (.assign name expr))
    exact ⟨⟨fault, deep, fails machine⟩, ⟨other, deep', fails' machine⟩⟩

/-- `var x = (var x = 2)` finds `x` bound when it has its value, and `x` stays what the inner
definition made it; `a = (var x = 2)` changes `a` in its place, before the new variable. -/
theorem binder_commits_once_nested :
    let here := Node.mk Location.unknown
    let inner := here (.define "x" (here (.number "2")))
    let machine : Machine := ⟨⟨⟨[("a", .number 3)]⟩⟩, ["0"]⟩
    let middle : Machine := ⟨⟨⟨[("a", .number 3), ("x", .number 2)]⟩⟩, ["0"]⟩
    Allowed .standard 1 ∧ machine.scope.hasVariable "x" = false ∧
      machine.scope.hasVariable "a" = true ∧
      evaluate .standard 2 inner machine = .ok (.number 2) middle ∧
      visit .standard 1 (here (.define "x" inner)) machine =
        .error (.ofCause (.duplicateDefinition "x" true)) middle ∧
      ∃ next, visit .standard 1 (here (.assign "a" inner)) machine = .ok (some (.number 2)) next ∧
        next.scope.bindings.names = ["a", "x"] := by
  intro here inner machine middle
  have allowed : Allowed .standard 1 := by decide
  have outcome : evaluate .standard 2 inner machine = .ok (.number 2) middle := rfl
  have defines := ((binder_commits_once .standard 1 Location.unknown "x" inner machine).1
    allowed).2 rfl
  have assigns := ((binder_commits_once .standard 1 Location.unknown "a" inner machine).1
    allowed).1 rfl
  obtain ⟨next, success, -, -, names⟩ := assigns.2.2 _ _ outcome
  exact ⟨allowed, rfl, rfl, outcome, ((defines.2.2 _ _ outcome).1 rfl).1, next, success, names⟩

/-- With the limit zero no statement is reached: `var x = 2` is not reported as a second definition
of `x`, but as too deep. -/
theorem definition_too_deep :
    let here := Node.mk Location.unknown
    let session := Session.fresh ⟨⟨.standard, 0⟩, 2000⟩ ⟨⟨[("x", .number 1)]⟩⟩
    session.scope.hasVariable "x" = true ∧
      (session.run (here (.define "x" (here (.number "2"))))).result =
        .error ⟨.tooDeep 0, Location.unknown⟩ ∧
      ∀ e, (session.run (here (.define "x" (here (.number "2"))))).result = .error e →
        e.cause.kind ≠ .duplicateDefinition := by
  intro here session
  refine ⟨rfl, rfl, fun e failed => ?_⟩
  cases failed
  exact nofun

end Eval

end Reckoner
