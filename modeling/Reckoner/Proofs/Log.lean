import Reckoner.Proofs.Address
import Reckoner.Proofs.Discipline

set_option autoImplicit false

/-!
Evaluations that keep a log. The evaluation is told once more: a print that has evaluated its
expression records where in the tree it stands, and the value. So that a record cannot be of another
part than the one that was visited, forms are performed with their parts left open.

A logged step is set beside the step itself, together with the prints that it may come to. This is
closed under doing one thing after the other, and the prints are then those of the first step and
after them those of the second.
-/

namespace Reckoner

/-- Every part of the form is visited whenever the form comes to a result. -/
def Form.Straight : Form → Prop
  | .or _ _ | .and _ _ | .comparison _ (_ :: _ :: _) => False
  | _ => True

def Node.Straight (tree : Node) : Prop :=
  ∀ inner ∈ tree.nodes, inner.form.Straight

/-- A print that took place, with the value of its expression. -/
structure Event where
  print : Occurrence
  value : Value

def Event.line (t : Tolerance) (event : Event) : String :=
  Display.text t event.value

/-- A step of an evaluation that keeps a log of prints. -/
abbrev Logged := EStateM Fault (Machine × List Event)

namespace Logged

variable {α : Type}

def outcome (log : List Event) :
    EStateM.Result Fault Machine α → EStateM.Result Fault (Machine × List Event) α
  | .ok a after => .ok a (after, log)
  | .error fault after => .error fault (after, log)

/-- A step that records nothing. -/
def ofRun (step : Run α) : Logged α := fun (machine, log) =>
  outcome log (step machine)

def record (event : Event) : Logged Unit :=
  modify fun (machine, log) => (machine, log ++ [event])

def within (place : Location) (step : Logged α) : Logged α := fun state =>
  match step state with
  | .ok a after => .ok a after
  | .error fault after => .error (fault.within place) after

def require (node : Node) (step : Logged (Option Value)) : Logged Value := do
  match ← step with
  | some value => return value
  | none => throw (.error ⟨.noValue node.form.name, node.location⟩)

/-- The visitor of a form whose parts are left open: for each of them it visits the part at the
position, in a given way. The constant of a juxtaposition is no part of the tree. -/
def visitor (s : Settings) (depth : Nat) (parts : List Node)
    (visit : Nat → Node → Logged (Option Value)) : Visitor Logged where
  own := ofRun
  visit part :=
    match part.slot? with
    | some position => visit position (parts.getD position part)
    | none => ofRun (Eval.visit s depth part)
  evaluate part :=
    match part.slot? with
    | some position =>
      require (parts.getD position part) (visit position (parts.getD position part))
    | none => ofRun (Eval.evaluate s depth part)

/-- What a form at an address does. A print is recorded once its expression is evaluated. -/
def perform (V : Visitor Logged) (t : Tolerance) (address : List Nat) (place : Location) :
    Form → Logged (Option Value)
  | .print expr => do
    let value ← V.evaluate (Node.slot 0)
    record ⟨⟨address, expr⟩, value⟩
    V.own (Run.emit (Display.text t value))
    return some value
  | form => V.perform t place form.opened

end Logged

def Eval.logged (s : Settings) (depth : Nat) (address : List Nat) (node : Node) :
    Logged (Option Value) :=
  Logged.within node.location <|
    if s.maxDepth < depth then throw (.ofCause (.tooDeep s.maxDepth))
    else if _ : s.stackLimit < depth then throw (.breakdown .stackExhausted)
    else
      Logged.perform
        (Logged.visitor s (depth + 1) node.form.children fun position part =>
          logged s (depth + 1) (address ++ [position]) part)
        s.tolerance address node.location node.form
termination_by s.stackLimit + 1 - depth

/-- How lines come about: one after the other, each as the text of a value that the expression of a
print was evaluated to just before. -/
inductive Printing (s : Settings) : List String → List Event → List String → Prop
  | nothing (lines : List String) : Printing s lines [] lines
  | print {start : List String} {events : List Event} {event : Event} {depth : Nat}
      {before after : Machine} :
      Printing s start events after.printed →
      Eval.evaluate s depth event.print.expr before = .ok event.value after →
        Printing s start (events ++ [event]) (after.printed ++ [event.line s.tolerance])

namespace Printing

variable {s : Settings} {start middle lines : List String} {events others : List Event}

theorem of_eq (same : lines = start) : Printing s start [] lines :=
  same ▸ nothing lines

theorem trans (first : Printing s start events middle) (second : Printing s middle others lines) :
    Printing s start (events ++ others) lines := by
  induction second with
  | nothing => rwa [List.append_nil]
  | print _ evaluated ih =>
      rw [← List.append_assoc]
      exact ih.print evaluated

theorem lines_eq (printing : Printing s start events lines) :
    lines = start ++ events.map (Event.line s.tolerance) := by
  induction printing with
  | nothing => simp
  | print _ _ ih => simp [ih]

end Printing

namespace Run

def Silent {α : Type} (step : Run α) : Prop :=
  ∀ lines, Keeps (fun machine => machine.printed = lines) (fun _ => True) (fun _ => True) step

variable {α : Type}

theorem silent_ofExcept (result : Except Fault α) : Silent (ofExcept result) := by
  intro lines
  apply Keeps.ofExcept
  cases result <;> trivial

theorem silent_fail (cause : Cause) : Silent (fail cause : Run α) :=
  fun _ => Keeps.throw trivial

theorem silent_hasVariable (name : String) : Silent (hasVariable name) :=
  fun _ _ same => ⟨trivial, same⟩

theorem silent_lookup (name : String) : Silent (lookup name) :=
  fun lines => Keeps.get fun machine _ => silent_ofExcept (machine.scope.lookup name) lines

theorem silent_update (operation : Scope → Except Fault Scope) : Silent (update operation) := by
  intro lines
  apply Keeps.update
  intro machine same
  cases operation machine.scope <;> trivial

theorem silent_call (t : Tolerance) (function : String) (vs : List Value) :
    Silent (Eval.call t function vs) := by
  intro lines
  unfold Eval.call
  split
  · exact silent_ofExcept _ lines
  · refine Keeps.get fun machine _ => ?_
    split
    · exact silent_ofExcept _ lines
    · exact silent_fail _ lines

theorem silent_token (s : Settings) (depth : Nat) (token : Token) :
    Silent (Eval.evaluate s depth token.node) := by
  intro lines
  rw [Eval.evaluate_eq_require]
  refine Keeps.bind (?_ : Keeps _ _ (fun _ => True) _) ?_
  · apply Keeps.within _ _ fun _ _ => trivial
    split
    · exact silent_fail _ lines
    · split
      · exact Keeps.throw trivial
      · exact Keeps.bind (silent_ofExcept _ lines) fun _ _ => Keeps.pure trivial
  · intro result _
    cases result with
    | none => exact Keeps.throw trivial
    | some value => exact Keeps.pure trivial

end Run

namespace Logged

variable {α β : Type} {s : Settings} {straight : Prop} {prints others : List Occurrence}

/-- From a machine and a log, the outcome of a logged step is that of the step, and the events that
are recorded account for the lines. They are among the `prints`, in their order; and if the step
succeeds where nothing can be skipped, they are all of them. -/
inductive Ends (s : Settings) (straight : Prop) (prints : List Occurrence) (machine : Machine)
    (log : List Event) :
    EStateM.Result Fault (Machine × List Event) α → EStateM.Result Fault Machine α → Prop
  | ok {events : List Event} {a : α} {after : Machine} {longer : List Event} :
      longer = log ++ events → Printing s machine.printed events after.printed →
      (events.map Event.print).Sublist prints → (straight → events.map Event.print = prints) →
        Ends s straight prints machine log (.ok a (after, longer)) (.ok a after)
  | error {events : List Event} {fault : Fault} {after : Machine} {longer : List Event} :
      longer = log ++ events → Printing s machine.printed events after.printed →
      (events.map Event.print).Sublist prints →
        Ends s straight prints machine log (.error fault (after, longer)) (.error fault after)

/-- The logged step goes like the other one, and keeps a log of it. -/
def Records (s : Settings) (straight : Prop) (prints : List Occurrence) (logged : Logged α)
    (step : Run α) : Prop :=
  ∀ machine log, Ends s straight prints machine log (logged (machine, log)) (step machine)

namespace Records

variable {logged : Logged α} {step : Run α}

theorem pure (a : α) : Records s straight [] (Pure.pure a) (Pure.pure a) :=
  fun _ log => .ok (List.append_nil log).symm (.nothing _) (.refl _) fun _ => rfl

/-- What fails need not have come to any of the prints. -/
theorem throw (fault : Fault) :
    Records s straight prints (throw fault : Logged α) (throw fault : Run α) :=
  fun _ log => .error (List.append_nil log).symm (.nothing _) (List.nil_sublist prints)

/-- A step that prints nothing. -/
theorem ofRun (silent : step.Silent) : Records s straight [] (ofRun step) step := by
  intro machine log
  have same := silent machine.printed machine rfl
  change Ends s straight [] machine log (outcome log (step machine)) (step machine)
  generalize step machine = other at same ⊢
  cases other with
  | ok a after =>
      exact .ok (List.append_nil log).symm (.of_eq same.2) (.refl _) fun _ => rfl
  | error fault after => exact .error (List.append_nil log).symm (.of_eq same.2) (.refl _)

theorem weaken {narrower : Prop} (records : Records s straight prints logged step)
    (among : prints.Sublist others) (implies : narrower → straight ∧ prints = others) :
    Records s narrower others logged step := by
  intro machine log
  have ends := records machine log
  generalize logged (machine, log) = outcome, step machine = other at ends ⊢
  cases ends with
  | ok recorded printing within all =>
      refine .ok recorded printing (within.trans among) fun holds => ?_
      obtain ⟨straight, same⟩ := implies holds
      exact (all straight).trans same
  | error recorded printing within => exact .error recorded printing (within.trans among)

theorem mono {narrower : Prop} (records : Records s straight prints logged step)
    (implies : narrower → straight) : Records s narrower prints logged step :=
  records.weaken (.refl _) fun holds => ⟨implies holds, rfl⟩

/-- Prints may be skipped unless nothing can be. -/
theorem skip (records : Records s straight [] logged step) (none : straight → prints = []) :
    Records s straight prints logged step :=
  records.weaken (List.nil_sublist _) fun holds => ⟨holds, (none holds).symm⟩

theorem bind {f : α → Logged β} {g : α → Run β} (first : Records s straight prints logged step)
    (next : ∀ a, Records s straight others (f a) (g a)) :
    Records s straight (prints ++ others) (logged >>= f) (step >>= g) := by
  intro machine log
  have ends := first machine log
  simp only [Bind.bind, EStateM.bind]
  generalize logged (machine, log) = outcome, step machine = other at ends ⊢
  cases ends with
  | error recorded printing within =>
      exact .error recorded printing (within.trans (List.sublist_append_left _ _))
  | ok recorded printing within all =>
      rename_i a after longer
      have ends := next a after longer
      dsimp only
      generalize f a (after, longer) = outcome, g a after = other at ends ⊢
      subst recorded
      cases ends with
      | ok recorded' printing' within' all' =>
          refine .ok (recorded'.trans (List.append_assoc _ _ _)) (printing.trans printing') ?_ ?_
          · rw [List.map_append]
            exact within.append within'
          · intro holds
            rw [List.map_append, all holds, all' holds]
      | error recorded' printing' within' =>
          refine .error (recorded'.trans (List.append_assoc _ _ _)) (printing.trans printing') ?_
          rw [List.map_append]
          exact within.append within'

/-- The prints of one step and no others. -/
theorem alone (records : Records s straight prints logged step) :
    Records s straight (prints ++ []) logged step := by
  rwa [List.append_nil]

theorem map (records : Records s straight prints logged step) (f : α → β) :
    Records s straight prints (f <$> logged) (f <$> step) := by
  rw [map_eq_pure_bind, map_eq_pure_bind, ← List.append_nil prints]
  exact records.bind fun a => pure (f a)

/-- Two values, one after the other, and what is made of them. -/
theorem pair {β γ : Type} {second : Logged β} {other : Run β} {f : α → β → Logged γ}
    {g : α → β → Run γ} (first : Records s straight prints logged step)
    (next : Records s straight others second other)
    (combines : ∀ a b, Records s straight [] (f a b) (g a b)) :
    Records s straight (prints ++ (others ++ []))
      (do
        let a ← logged
        let b ← second
        f a b)
      (do
        let a ← step
        let b ← other
        g a b) :=
  first.bind fun a => next.bind fun b => combines a b

/-- A value, which is also stored somewhere. -/
theorem store {logged : Logged Value} {step : Run Value}
    (records : Records s straight prints logged step) {operation : Value → Run Unit}
    (silent : ∀ value, (operation value).Silent) :
    Records s straight (prints ++ [])
      (do
        let value ← logged
        Logged.ofRun (operation value)
        return some value)
      (do
        let value ← step
        operation value
        return some value) :=
  records.bind fun value => (ofRun (silent value)).bind fun _ => pure (some value)

/-- An operation on values. -/
theorem ofExcept (result : Except Fault α) :
    Records s straight [] (Logged.ofRun (Run.ofExcept result)) (Run.ofExcept result) :=
  ofRun (Run.silent_ofExcept result)

theorem within (records : Records s straight prints logged step) (place : Location) :
    Records s straight prints (within place logged) (Run.within place step) := by
  intro machine log
  have ends := records machine log
  unfold Logged.within Run.within
  generalize logged (machine, log) = outcome, step machine = other at ends ⊢
  cases ends with
  | ok recorded printing within all => exact .ok recorded printing within all
  | error recorded printing within => exact .error recorded printing within

theorem require {logged : Logged (Option Value)} {step : Run (Option Value)}
    (records : Records s straight prints logged step) (node : Node) :
    Records s straight prints (require node logged)
      (Eval.require node.location node.form step) := by
  rw [← List.append_nil prints]
  apply records.bind
  intro result
  cases result with
  | some value => exact pure value
  | none => exact throw _

end Records

end Logged

end Reckoner
