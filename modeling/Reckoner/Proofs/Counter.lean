import Reckoner.Proofs.Lockstep
import Reckoner.Session

set_option autoImplicit false

namespace Reckoner

/-- Where an error is made, its text is that of its report. -/
theorem Cause.coherent_diagnostic (cause : Cause) : cause.diagnostic.Coherent := by
  cases cause with
  | brokenDown b => cases b <;> rfl
  | _ => rfl

namespace Error

/-- The report of an error seen from further out is what attaching the place makes of its report.
-/
theorem diagnostic_within (place : Location) (e : Error) :
    (e.within place).diagnostic = e.diagnostic.attach place := by
  unfold Diagnostic.attach
  change e.cause.diagnostic.withLocation (e.location.orOuter place) =
    if e.location.isKnown || !place.isKnown then _ else _
  unfold Location.orOuter
  split <;> rfl

end Error

theorem Thrown.toFault_ofFault (fault : Fault) : (ofFault fault).toFault = fault := by
  cases fault <;> rfl

theorem Thrown.within_ofFault (place : Location) (fault : Fault) :
    (ofFault fault).within place = ofFault (fault.within place) := by
  cases fault with
  | error e => exact congrArg (error e.cause) (e.diagnostic_within place).symm
  | breakdown b => rfl

variable {α β : Type} {good : α → Prop} {better : β → Prop} {depth : Nat}

/-- The two outcomes are the same, with the report of the error that is thrown, and the counter is
at `depth`. -/
inductive Counted (depth : Nat) (good : α → Prop) :
    EStateM.Result Thrown Evaluator α → EStateM.Result Fault Machine α → Prop
  | ok {a : α} (machine : Machine) :
      good a → Counted depth good (.ok a ⟨machine, depth⟩) (.ok a machine)
  | error (fault : Fault) (machine : Machine) :
      Counted depth good (.error (.ofFault fault) ⟨machine, depth⟩) (.error fault machine)

namespace Evaluation

/-- An error that is thrown is the report of one that the step failed with. -/
theorem ofRun_eq_error {step : Run α} {e after : Evaluator} {cause : Cause} {report : Diagnostic}
    (thrown : ofRun step e = .error (.error cause report) after) :
    ∃ error : Error, step e.toMachine = .error (.error error) after.toMachine ∧
      error.cause = cause ∧ error.diagnostic = report := by
  unfold ofRun at thrown
  cases outcome : step e.toMachine with
  | ok a machine =>
      rw [outcome] at thrown
      cases thrown
  | error fault machine =>
      rw [outcome] at thrown
      cases fault with
      | error error =>
          cases thrown
          exact ⟨error, rfl, rfl, rfl⟩
      | breakdown b => cases thrown

/-- Whatever a step comes to, the handlers see to what is thrown and to the state. -/
theorem guarded_apply (step : Evaluation α) (handle : Thrown → Thrown)
    (restore : Evaluator → Evaluator) (e : Evaluator) :
    (tryFinally (tryCatch step fun thrown => throw (handle thrown)) (modify restore) :
        Evaluation α) e =
      match step e with
      | .ok a after => .ok a (restore after)
      | .error thrown after => .error (handle thrown) (restore after) := by
  simp only [tryFinally, MonadFinally.tryFinally', Functor.map, EStateM.map, tryCatch,
    tryCatchThe, MonadExceptOf.tryCatch, EStateM.tryCatch]
  cases step e <;> rfl

/-- The counter is raised, and lowered again on both ways out. -/
theorem enter_apply (s : Settings) (place : Location) (step : Evaluation α) (e : Evaluator) :
    enter s place step e =
      match (if s.maxDepth < (e.depth + 1 : Nat) then ofRun (Run.fail (.tooDeep s.maxDepth))
        else step) { e with depth := e.depth + 1 } with
      | .ok a after => .ok a { after with depth := after.depth - 1 }
      | .error thrown after =>
        .error (thrown.within place) { after with depth := after.depth - 1 } :=
  guarded_apply _ _ _ _

/-- With the counter at `depth`, the evaluation goes like the step and leaves the counter there. -/
def Follows (depth : Nat) (good : α → Prop) (evaluation : Evaluation α) (step : Run α) : Prop :=
  ∀ machine, Counted depth good (evaluation ⟨machine, depth⟩) (step machine)

namespace Follows

variable {evaluation : Evaluation α} {step : Run α}

theorem pure {a : α} (holds : good a) : Follows depth good (Pure.pure a) (Pure.pure a) :=
  fun machine => .ok machine holds

theorem bind {f : α → Evaluation β} {g : α → Run β} (follows : Follows depth good evaluation step)
    (next : ∀ a, good a → Follows depth better (f a) (g a)) :
    Follows depth better (evaluation >>= f) (step >>= g) := by
  intro machine
  have first := follows machine
  simp only [Bind.bind, EStateM.bind]
  generalize evaluation ⟨machine, depth⟩ = outcome, step machine = other at first ⊢
  cases first with
  | ok after holds => exact next _ holds after
  | error fault after => exact .error fault after

/-- A step that visits nothing. -/
theorem ofRun (yields : ∀ machine a after, step machine = .ok a after → good a) :
    Follows depth good (ofRun step) step := by
  intro machine
  unfold Evaluation.ofRun
  dsimp only
  cases outcome : step machine with
  | ok a after => exact .ok after (yields machine a after outcome)
  | error fault after => exact .error fault after

theorem apply (follows : Follows depth good evaluation step) (machine : Machine) :
    evaluation ⟨machine, depth⟩ = Evaluation.ofRun step ⟨machine, depth⟩ := by
  have ends := follows machine
  unfold Evaluation.ofRun
  dsimp only
  generalize evaluation ⟨machine, depth⟩ = outcome, step machine = other at ends ⊢
  cases ends <;> rfl

theorem mono {weaker : α → Prop} (follows : Follows depth good evaluation step)
    (weaken : ∀ a, good a → weaker a) : Follows depth weaker evaluation step := by
  intro machine
  have ends := follows machine
  generalize evaluation ⟨machine, depth⟩ = outcome, step machine = other at ends ⊢
  cases ends with
  | ok after holds => exact .ok after (weaken _ holds)
  | error fault after => exact .error fault after

/-- What follows a step one level down does so from above, where the node is entered. -/
theorem within {place : Location} {descended : Evaluation α}
    (follows : Follows (depth + 1) good descended step) {entered : Evaluation α}
    (enters : ∀ machine, entered ⟨machine, depth⟩ =
      match descended ⟨machine, depth + 1⟩ with
      | .ok a after => .ok a { after with depth := after.depth - 1 }
      | .error thrown after =>
        .error (thrown.within place) { after with depth := after.depth - 1 }) :
    Follows depth good entered (Run.within place step) := by
  intro machine
  have ends := follows machine
  rw [enters]
  unfold Run.within
  generalize descended ⟨machine, depth + 1⟩ = outcome, step machine = other at ends ⊢
  cases ends with
  | ok after holds => exact .ok after holds
  | error fault after =>
      dsimp only
      rw [Thrown.within_ofFault]
      exact .error _ after

/-- The counter agrees with the depth that is handed down. -/
theorem enter {s : Settings} (place : Location) {evaluation : Evaluation (Option Value)}
    {step : Run (Option Value)} {good : Option Value → Prop}
    (follows : Follows (depth + 1) good evaluation
      (if s.stackLimit < depth + 1 then throw (.breakdown .stackExhausted) else step)) :
    Follows depth good (enter s place evaluation) (Eval.enter s (depth + 1) place step) := by
  have descends : Follows (depth + 1) good
      (if s.maxDepth < (depth + 1 : Nat) then Evaluation.ofRun (Run.fail (.tooDeep s.maxDepth))
        else evaluation)
      (if s.maxDepth < (depth + 1 : Nat) then Run.fail (.tooDeep s.maxDepth)
        else if s.stackLimit < depth + 1 then throw (.breakdown .stackExhausted) else step) := by
    split
    · exact ofRun nofun
    · exact follows
  exact descends.within fun machine => enter_apply s place evaluation ⟨machine, depth⟩

end Follows

variable (s : Settings)

/-- The visits of the parts of a node, with the counter at `depth`. -/
def counting (depth : Nat) : Pairing s.tolerance Evaluation Run where
  left := visitor (descend s (s.stackLimit - depth))
  right := Eval.visitor s (depth + 1)
  together := Follows depth
  sound _ := True
  respects := s.respects_anything
  pure := Follows.pure
  bind := Follows.bind
  ofExcept {_ _ result} computes := Follows.ofRun fun _ _ _ success => by
    cases result with
    | ok a =>
        cases success
        exact computes
    | error fault => cases success

theorem counting_admits (depth : Nat) (place : Location) (form : Form) :
    (counting s depth).Admits place form := by
  have does {α : Type} {good : α → Prop} (always : ∀ a, good a) (step : Run α) :
      (counting s depth).Does good step := Follows.ofRun fun _ a _ _ => always a
  have own {α : Type} (step : Run α) : (counting s depth).Does (fun _ => True) step :=
    does (fun _ => trivial) step
  cases form with
  | define name expr | assign name expr => exact ⟨own _, fun v _ => own _⟩
  | print expr => exact fun v _ => own _
  | number text | imaginary text | identifier name => exact own _
  | juxtaposition number constant names group parenthesized =>
      exact ⟨fun text _ => own _, fun name _ => own _⟩
  | call function arguments => exact fun vs _ => own _
  | atom => exact does (fun _ _ _ => trivial) _
  | _ => trivial

theorem require_follows {depth : Nat} (node : Node) {evaluation : Evaluation (Option Value)}
    {step : Run (Option Value)} (follows : Follows depth (fun _ => True) evaluation step) :
    Follows depth (fun _ => True) (require node evaluation)
      (Eval.require node.location node.form step) := by
  apply follows.bind
  intro result _
  cases result with
  | some value => exact Follows.pure trivial
  | none => exact Follows.ofRun nofun

/-- An evaluation with the counter at `depth` goes like one that is handed the depth, one further
down for the visit itself. -/
theorem descend_follows (depth : Nat) (node : Node) :
    Follows depth (fun _ => True) (descend s (s.stackLimit - depth) node)
      (Eval.visit s (depth + 1) node) := by
  -- The room on the stack bounds how far the visits go down, and the induction is over it.
  induction left : s.stackLimit - depth generalizing depth node with
  | zero =>
      obtain ⟨place, form⟩ := node
      rw [descend, Eval.visit]
      apply Follows.enter place
      rw [if_pos (by omega)]
      exact fun machine => .error (.breakdown .stackExhausted) machine
  | succ room ih =>
      obtain ⟨place, form⟩ := node
      have below : room = s.stackLimit - (depth + 1) := by omega
      have visits (part : Node) : (counting s (depth + 1)).Visits part := by
        have follows := ih (depth + 1) part below.symm
        rw [below] at follows
        refine ⟨follows.mono fun _ _ _ _ => trivial, ?_⟩
        have evaluates := require_follows part follows
        rwa [← Eval.evaluate_eq_require] at evaluates
      rw [descend, Eval.visit]
      apply Follows.enter place
      rw [if_neg (by omega), Eval.dispatch_eq_perform, below]
      have performs := (counting s (depth + 1)).together_perform place form
        (counting_admits s (depth + 1) place form) fun part _ => visits part
      exact performs.mono fun _ _ => trivial

/-- A visit goes like the one that is handed the depth, and leaves the counter where it was,
whatever the outcome. -/
theorem visit_apply (node : Node) (e : Evaluator) :
    visit s node e = ofRun (Eval.visit s (e.depth + 1) node) e :=
  (descend_follows s e.depth node).apply e.toMachine

theorem evaluate_apply (node : Node) (e : Evaluator) :
    evaluate s node e = ofRun (Eval.evaluate s (e.depth + 1) node) e := by
  have follows := require_follows node (descend_follows s e.depth node)
  rw [← Eval.evaluate_eq_require] at follows
  exact follows.apply e.toMachine

end Evaluation

namespace Session

variable (session : Session)

theorem perform_ofRun {α : Type} (step : Run α) :
    session.perform (.ofRun step) =
      match step ⟨session.scope, []⟩ with
      | .ok a after => ⟨.ok a, { session with scope := after.scope }, after.printed⟩
      | .error fault after =>
        ⟨.error fault, { session with scope := after.scope }, after.printed⟩ := by
  unfold perform Evaluation.ofRun
  dsimp only
  cases step ⟨session.scope, []⟩ with
  | ok a after => rfl
  | error fault after =>
      dsimp only
      rw [Thrown.toFault_ofFault]

theorem visit_eq (node : Node) :
    session.visit node =
      session.perform (.ofRun (Eval.visit session.settings (session.depth + 1) node)) := by
  unfold visit perform
  rw [Evaluation.visit_apply]

theorem visit_result_of_error {node : Node} {fault : Fault} {after : Machine}
    (failed : Eval.visit session.settings (session.depth + 1) node ⟨session.scope, []⟩ =
      .error fault after) : (session.visit node).result = .error fault := by
  rw [visit_eq, perform_ofRun, failed]

theorem evaluate_eq (node : Node) :
    session.evaluate node =
      session.perform (.ofRun (Eval.evaluate session.settings (session.depth + 1) node)) := by
  unfold evaluate perform
  rw [Evaluation.evaluate_apply]

theorem run_eq (node : Node) :
    session.run node =
      (session.reset.perform (.ofRun (Eval.visit session.settings 1 node))).mapError
        Fault.toError := by
  unfold run
  rw [visit_eq]
  rfl

end Session

end Reckoner
