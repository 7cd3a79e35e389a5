import Reckoner.Proofs.Discipline
import Reckoner.Proofs.Parallel

set_option autoImplicit false

/-!
Where errors come from. The evaluation is told once more, without any regard to places: an error
collects the nodes that were being visited when it arose, and so has a path that leads to it. The
place that the evaluator reports is that of the innermost node on this path that has one.
-/

namespace Reckoner

/-- How an evaluation fails: with an error, at the end of a path of nodes from the outside in, or by
a breakdown. -/
inductive Failure where
  | error (path : List Node) (cause : Cause)
  | breakdown (b : Breakdown)

namespace Failure

/-- What goes wrong in a node itself. The place of the fault plays no part. -/
def ofFault : Fault → Failure
  | .error e => .error [] e.cause
  | .breakdown b => .breakdown b

/-- The failure as seen from an enclosing node. -/
def within (node : Node) : Failure → Failure
  | .error path cause => .error (node :: path) cause
  | .breakdown b => .breakdown b

end Failure

/-- A step of an evaluation that keeps the path to a failure. -/
abbrev Traced := EStateM Failure Machine

namespace Traced

variable {α : Type}

def ofRun (step : Run α) : Traced α := fun machine =>
  match step machine with
  | .ok a after => .ok a after
  | .error fault after => .error (.ofFault fault) after

def within (node : Node) (step : Traced α) : Traced α := fun machine =>
  match step machine with
  | .ok a after => .ok a after
  | .error failure after => .error (failure.within node) after

/-- Insists on a value. The node that gave none ends the path. -/
def require (node : Node) (step : Traced (Option Value)) : Traced Value := do
  match ← step with
  | some value => return value
  | none => throw (.error [node] (.noValue node.form.name))

def visitor (visit : Node → Traced (Option Value)) : Visitor Traced where
  own := ofRun
  visit := visit
  evaluate part := require part (visit part)

end Traced

def Eval.traced (s : Settings) (depth : Nat) (node : Node) : Traced (Option Value) :=
  Traced.within node <|
    if s.maxDepth < depth then throw (.error [] (.tooDeep s.maxDepth))
    else if _ : s.stackLimit < depth then throw (.breakdown .stackExhausted)
    else
      (Traced.visitor fun part => traced s (depth + 1) part).perform s.tolerance node.location
        node.form
termination_by s.stackLimit + 1 - depth

/-- The nodes lead from a node to one of its parts, and so on. -/
structure Node.Leads (node : Node) (path : List Node) : Prop where
  starts : path.head? = some node
  descends : path.IsChain fun outer inner => inner ∈ outer.form.parts

/-- The innermost node on a path whose line is known. -/
def Node.innermost? (path : List Node) : Option Node :=
  (path.filter (·.location.isKnown)).getLast?

namespace Node

theorem isKnown_of_innermost? {path : List Node} {inner : Node}
    (innermost : innermost? path = some inner) : inner.location.isKnown = true :=
  (List.mem_filter.mp (List.mem_of_getLast? innermost)).2

theorem innermost?_cons (node : Node) (path : List Node) :
    innermost? (node :: path) =
      (innermost? path).or (if node.location.isKnown then some node else none) := by
  unfold innermost?
  rw [List.filter_cons]
  cases known : node.location.isKnown with
  | true =>
      rw [if_pos rfl, if_pos rfl, List.getLast?_cons]
      cases (path.filter (·.location.isKnown)).getLast? <;> rfl
  | false => simp

end Node

/-- The place is that of the innermost node with a known line. If there is none, it names no line.
-/
def Location.IsInnermost (place : Location) (path : List Node) : Prop :=
  match Node.innermost? path with
  | some node => place = node.location
  | none => place.line = none

theorem Location.orOuter_self (place : Location) : place.orOuter place = place := by
  unfold orOuter
  split <;> rfl

namespace Location.IsInnermost

/-- An enclosing place counts where none is known yet. -/
theorem cons {place : Location} {path : List Node} (innermost : place.IsInnermost path)
    (node : Node) : (place.orOuter node.location).IsInnermost (node :: path) := by
  unfold IsInnermost at innermost ⊢
  rw [Node.innermost?_cons]
  cases found : Node.innermost? path with
  | some inner =>
      rw [found] at innermost
      have known : place.isKnown = true := innermost ▸ Node.isKnown_of_innermost? found
      simpa [orOuter, known] using innermost
  | none =>
      rw [found] at innermost
      have nowhere : place.isKnown = false := by simp [isKnown, innermost]
      cases known : node.location.isKnown with
      | true => simp [orOuter, nowhere, known]
      | false => simpa [orOuter, nowhere, known] using innermost

theorem unknown_nil : Location.unknown.IsInnermost [] :=
  rfl

theorem singleton (node : Node) : node.location.IsInnermost [node] := by
  unfold IsInnermost
  rw [Node.innermost?_cons]
  cases known : node.location.isKnown with
  | true => rfl
  | false => exact Option.not_isSome_iff_eq_none.mp (Bool.eq_false_iff.mp known)

end Location.IsInnermost

namespace Node

/-- A path leads inwards from the node, and the place is the innermost one on it. -/
structure Accounts (node : Node) (path : List Node) (place : Location) : Prop where
  leads : node.Leads path
  innermost : place.IsInnermost path

/-- The same while the node is being visited: the path starts with one of its parts, or the error
is one of the node itself, which knows no place but that of the node. -/
def AccountsWithin (node : Node) (path : List Node) (place : Location) : Prop :=
  (path = [] ∧ (place = Location.unknown ∨ place = node.location)) ∨
    ∃ part ∈ node.form.parts, part.Accounts path place

theorem AccountsWithin.outward {node : Node} {path : List Node} {place : Location}
    (accounts : node.AccountsWithin path place) :
    node.Accounts (node :: path) (place.orOuter node.location) := by
  rcases accounts with ⟨rfl, here⟩ | ⟨part, member, leads, innermost⟩
  · refine ⟨⟨rfl, .singleton node⟩, ?_⟩
    rcases here with rfl | rfl
    · exact Location.IsInnermost.unknown_nil.cons node
    · rw [Location.orOuter_self]
      exact Location.IsInnermost.singleton node
  · refine ⟨⟨rfl, ?_⟩, innermost.cons node⟩
    obtain ⟨rest, rfl⟩ := List.head?_eq_some_iff.mp leads.starts
    exact .cons_cons member leads.descends

/-- A node that gave no value is at fault itself. -/
theorem accounts_self (node : Node) : node.Accounts [node] node.location :=
  ⟨⟨rfl, .singleton node⟩, .singleton node⟩

end Node

/-- A fault of a node itself, which knows no place. -/
def Fault.Unplaced : Fault → Prop
  | .error e => e.location = Location.unknown
  | .breakdown _ => True

theorem Fault.Ordinary.unplaced {regular : Prop} {fault : Fault}
    (ordinary : fault.Ordinary regular) : fault.Unplaced := by
  cases fault with
  | error e => exact (Fault.ordinary_error_iff.mp ordinary).1
  | breakdown b => trivial

/-- The path of the failure accounts for the place of the fault. -/
inductive Failure.Explains (accounts : List Node → Location → Prop) : Failure → Fault → Prop
  | error {path : List Node} {cause : Cause} {place : Location} :
      accounts path place → Explains accounts (.error path cause) (.error ⟨cause, place⟩)
  | breakdown (b : Breakdown) : Explains accounts (.breakdown b) (.breakdown b)

theorem Failure.Explains.mono {accounts lenient : List Node → Location → Prop} {failure : Failure}
    {fault : Fault} (explains : Explains accounts failure fault)
    (relax : ∀ path place, accounts path place → lenient path place) :
    Explains lenient failure fault := by
  cases explains with
  | error accounts => exact .error (relax _ _ accounts)
  | breakdown b => exact .breakdown b

namespace Traced

variable {α : Type} {accounts : List Node → Location → Prop} {good : α → Prop}

/-- The traced step goes like the other one: from the same machine to the same machine, with the
same result or with a failure that explains the fault. -/
def Follows (accounts : List Node → Location → Prop) (good : α → Prop) (traced : Traced α)
    (step : Run α) : Prop :=
  Parallel (Failure.Explains accounts) Eq good traced step

namespace Follows

theorem within {node : Node} {traced : Traced α} {step : Run α}
    (follows : Follows node.AccountsWithin good traced step) :
    Follows node.Accounts good (within node traced) (Run.within node.location step) := by
  intro left right same
  have ends := follows left right same
  unfold Traced.within Run.within
  generalize traced left = outcome, step right = other at ends ⊢
  cases ends with
  | ok holds same => exact .ok holds same
  | error explains same =>
      cases explains with
      | error accounts => exact .error (.error accounts.outward) same
      | breakdown b => exact .error (.breakdown b) same

/-- A step of a node itself, if its faults know no place. -/
theorem ofRun {node : Node} {step : Run α}
    (keeps : Run.Keeps (fun _ => True) Fault.Unplaced good step) :
    Follows node.AccountsWithin good (ofRun step) step := by
  rintro machine _ rfl
  have ends := keeps machine trivial
  unfold Traced.ofRun
  generalize step machine = outcome at ends ⊢
  cases outcome with
  | ok a after => exact .ok ends.1 rfl
  | error fault after =>
      cases fault with
      | error e => exact .error (.error (Or.inl ⟨rfl, Or.inl ends.1⟩)) rfl
      | breakdown b => exact .error (.breakdown b) rfl

/-- An error at the place of the node itself. -/
theorem here (node : Node) (cause : Cause) :
    Follows node.AccountsWithin good (Traced.ofRun (throw (.error ⟨cause, node.location⟩)))
      (throw (.error ⟨cause, node.location⟩)) :=
  fun _ _ same => .error (.error (Or.inl ⟨rfl, Or.inr rfl⟩)) same

theorem require {node part : Node} (member : part ∈ node.form.parts)
    {traced : Traced (Option Value)} {step : Run (Option Value)}
    (follows : Follows node.AccountsWithin (fun _ => True) traced step) :
    Follows node.AccountsWithin (fun _ => True) (require part traced)
      (Eval.require part.location part.form step) := by
  apply Parallel.bind follows
  intro result _
  cases result with
  | some value => exact Parallel.pure trivial
  | none => exact Parallel.throw (.error (Or.inr ⟨part, member, part.accounts_self⟩))

end Follows

end Traced

theorem Literal.number_unplaced (text : String) :
    Computes (fun _ => True) Fault.Unplaced (number text) := by
  apply (number_computes text).mono fun _ _ => trivial
  rintro fault (rfl | rfl)
  · rfl
  · trivial

namespace Run

/-- The faults of the step know no place. -/
def Unplaced {α : Type} (step : Run α) : Prop :=
  Run.Keeps (fun _ => True) Fault.Unplaced (fun _ => True) step

theorem unplaced_ofExcept {α : Type} {good : α → Prop} {regular : Prop} {result : Except Fault α}
    (computes : Computes good (Fault.Ordinary regular) result) : Unplaced (ofExcept result) :=
  Keeps.ofExcept (computes.mono (fun _ _ => trivial) fun _ => Fault.Ordinary.unplaced)

theorem unplaced_number (text : String) : Unplaced (ofExcept (Literal.number text)) :=
  Keeps.ofExcept (Literal.number_unplaced text)

theorem unplaced_imaginary (t : Tolerance) (text : String) :
    Unplaced (ofExcept (Literal.imaginary t text)) :=
  Keeps.ofExcept ((Literal.factor_computes (Literal.number_unplaced _)).map fun _ _ => trivial)

theorem unplaced_lookup (name : String) : Unplaced (lookup name) :=
  Keeps.lookup True (fun _ => Fault.Ordinary.unplaced) fun _ _ _ _ => trivial

theorem unplaced_define (name : String) (v : Value) : Unplaced (define name v) :=
  Keeps.define True (fun _ => Fault.Ordinary.unplaced) fun _ _ _ => trivial

theorem unplaced_assign (name : String) (v : Value) : Unplaced (assign name v) :=
  Keeps.assign True (fun _ => Fault.Ordinary.unplaced) fun _ _ _ => trivial

theorem unplaced_call (t : Tolerance) (function : String) (vs : List Value) :
    Unplaced (Eval.call t function vs) := by
  unfold Eval.call
  split
  · rename_i f _
    exact unplaced_ofExcept (Builtin.apply_computes t f vs)
  · refine Keeps.get fun machine _ => ?_
    split
    · rename_i argument value _
      exact unplaced_ofExcept (Arith.multiply_computes t True value argument)
    · exact Keeps.throw rfl

end Run

/-- The report is that of the cause as it arose, at a place, and its text lists what is there in a
fixed order. -/
structure Cause.ReportedAt (cause : Cause) (place : Location) (report : Diagnostic) : Prop where
  raised : cause.diagnostic.Coherent
  details : report.toDetails = { cause.diagnostic.toDetails with location := place }
  text : report.text = "\n".intercalate
    (["Error: " ++ cause.diagnostic.message] ++ Diagnostic.locationLine place ++
      Diagnostic.detailLine "Received" cause.diagnostic.received ++
      Diagnostic.detailLine "Expected" cause.diagnostic.expected ++
      Diagnostic.detailLine "Context" cause.diagnostic.context ++
      Diagnostic.detailLine "Suggestion" cause.diagnostic.suggestion ++
      Diagnostic.detailLine "Example" cause.diagnostic.usage)

theorem Error.reportedAt (e : Error) : e.cause.ReportedAt e.location e.diagnostic :=
  ⟨e.cause.coherent_diagnostic, rfl, rfl⟩

namespace Eval

variable (s : Settings)

/-- The traced evaluation beside the other one, within a node. -/
def tracing (depth : Nat) (node : Node) : Pairing s.tolerance Traced Run where
  left := Traced.visitor fun part => traced s depth part
  right := visitor s depth
  together := Traced.Follows node.AccountsWithin
  sound _ := True
  respects := s.respects_anything
  pure := Parallel.pure
  bind := Parallel.bind
  ofExcept computes := Traced.Follows.ofRun (Run.Keeps.ofExcept (computes.mono (fun _ good => good)
    fun _ => Fault.Ordinary.unplaced))

theorem tracing_admits (depth : Nat) (node : Node) :
    (tracing s depth node).Admits node.location node.form := by
  have own {α : Type} {step : Run α} (unplaced : step.Unplaced) :
      (tracing s depth node).Does (fun _ => True) step := Traced.Follows.ofRun unplaced
  have has (name : String) : (tracing s depth node).Does (fun _ => True) (Run.hasVariable name) :=
    own fun _ _ => ⟨trivial, trivial⟩
  cases node.form with
  | define name expr => exact ⟨has name, fun v _ => own (Run.unplaced_define name v)⟩
  | assign name expr => exact ⟨has name, fun v _ => own (Run.unplaced_assign name v)⟩
  | print expr => exact fun _ _ => own fun _ _ => ⟨trivial, trivial⟩
  | number text => exact own (Run.unplaced_number text)
  | imaginary text => exact own (Run.unplaced_imaginary _ text)
  | identifier name => exact own (Run.unplaced_lookup name)
  | juxtaposition number constant names group parenthesized =>
      exact ⟨fun text _ => own (Run.unplaced_number text),
        fun name _ => own (Run.unplaced_lookup name)⟩
  | call function arguments => exact fun vs _ => own (Run.unplaced_call _ function vs)
  | atom => exact Traced.Follows.here node .unsupportedAtom
  | _ => trivial

/-- What accounts for an error of a part does so within the node that it is a part of. -/
theorem tracing_visits {depth : Nat} {node part : Node} (member : part ∈ node.form.parts)
    (follows : Traced.Follows part.Accounts (fun _ => True) (traced s depth part)
      (visit s depth part)) : (tracing s depth node).Visits part := by
  have inside : Traced.Follows node.AccountsWithin (fun _ => True) (traced s depth part)
      (visit s depth part) :=
    Parallel.mono follows
      (fun _ _ explains => explains.mono fun _ _ accounts => Or.inr ⟨part, member, accounts⟩)
      fun _ _ => trivial
  refine ⟨Parallel.mono inside (fun _ _ explains => explains) fun _ _ _ _ => trivial, ?_⟩
  have evaluates : (tracing s depth node).right.evaluate part =
      require part.location part.form (visit s depth part) := evaluate_eq_require s depth part
  rw [evaluates]
  exact inside.require member

/-- The traced evaluation of a node goes like its evaluation, and its paths account for the places
of errors. -/
theorem traced_follows (depth : Nat) (node : Node) :
    Traced.Follows node.Accounts (fun _ => True) (traced s depth node) (visit s depth node) := by
  -- There is only so much room below a node, and the induction is over what is left of it.
  induction room : s.stackLimit + 1 - depth using Nat.strongRecOn generalizing depth node with
  | ind room ih =>
      obtain ⟨place, form⟩ := node
      rw [traced, visit, enter]
      apply Traced.Follows.within
      by_cases deep : s.maxDepth < depth
      · rw [if_pos deep, if_pos deep]
        exact Parallel.throw (.error (Or.inl ⟨rfl, Or.inl rfl⟩))
      rw [if_neg deep, if_neg deep]
      by_cases exhausted : s.stackLimit < depth
      · rw [dif_pos exhausted, if_pos exhausted]
        exact Parallel.throw (.breakdown _)
      rw [dif_neg exhausted, if_neg exhausted, dispatch_eq_perform]
      have performs := (tracing s (depth + 1) (.mk place form)).together_perform place form
        (tracing_admits s (depth + 1) (.mk place form)) fun part member =>
          tracing_visits s member (ih _ (by omega) (depth + 1) part rfl)
      exact Parallel.mono performs (fun _ _ explains => explains) fun _ _ => trivial

/-- An error that ends a visit is at the end of a path from the tree inwards, and its place is the
innermost one that is known on this path. Its report is that of the cause as it arose. What is
thrown is this report: it has been given places on the way out, and has the text of what it says in
the end. A run adds no place: it ends with an error of the visit, or with the report of a breakdown,
which has none. -/
theorem error_at_innermost_place (tree : Node) :
    (∀ s depth machine after e, visit s depth tree machine = .error (.error e) after →
      ∃ path cause, traced s depth tree machine = .error (.error path cause) after ∧
        tree.Leads path ∧ e.location.IsInnermost path ∧
        cause.ReportedAt e.location e.diagnostic) ∧
    (∀ s start after cause report,
      Evaluation.visit s tree start = .error (.error cause report) after →
      ∃ path, traced s (start.depth + 1) tree start.toMachine =
          .error (.error path cause) after.toMachine ∧
        tree.Leads path ∧ report.location.IsInnermost path ∧
        cause.ReportedAt report.location report) ∧
    ∀ (session : Session) e, (session.run tree).result = .error e →
      (session.reset.visit tree).result = .error (.error e) ∨
        ∃ b, (session.reset.visit tree).result = .error (.breakdown b) ∧
          e = ⟨.brokenDown b, Location.unknown⟩ := by
  have innermost : ∀ s depth machine after e, visit s depth tree machine = .error (.error e) after →
      ∃ path, traced s depth tree machine = .error (.error path e.cause) after ∧
        tree.Leads path ∧ e.location.IsInnermost path := by
    intro s depth machine after e fails
    have ends := traced_follows s depth tree machine machine rfl
    rw [fails] at ends
    generalize traced s depth tree machine = outcome at ends ⊢
    obtain _ | ⟨⟨accounts⟩, rfl⟩ := ends
    exact ⟨_, rfl, accounts.leads, accounts.innermost⟩
  refine ⟨?_, ?_, ?_⟩
  · intro s depth machine after e fails
    obtain ⟨path, arrives, leads, place⟩ := innermost s depth machine after e fails
    exact ⟨path, e.cause, arrives, leads, place, e.reportedAt⟩
  · intro s start after cause report thrown
    rw [Evaluation.visit_apply] at thrown
    obtain ⟨e, fails, rfl, rfl⟩ := Evaluation.ofRun_eq_error thrown
    obtain ⟨path, arrives, leads, place⟩ := innermost s _ _ _ e fails
    exact ⟨path, arrives, leads, place, e.reportedAt⟩
  · intro session e fails
    obtain ⟨fault, visited, rfl⟩ := Session.run_eq_error.mp fails
    cases fault with
    | error e => exact Or.inl visited
    | breakdown b => exact Or.inr ⟨b, visited, rfl⟩

/-- In `(…)` at line 3, in a statement that stands nowhere, in a program at line 1, column 2: what
is missing in the parentheses is reported at line 3. -/
theorem error_at_innermost_place_nested :
    let missing := Node.mk ⟨none, some 7⟩ .blank
    let paren := Node.mk ⟨some 3, none⟩ (.paren missing)
    let statement := Node.mk Location.unknown (.expressionStatement paren)
    let tree := Node.mk ⟨some 1, some 2⟩ (.program [statement])
    let machine : Machine := ⟨⟨.empty⟩, []⟩
    let e : Error := ⟨.noValue "CalcASTNode", ⟨some 3, none⟩⟩
    let path := [tree, statement, paren, missing]
    visit .standard 1 tree machine = .error (.error e) machine ∧
      traced .standard 1 tree machine = .error (.error path e.cause) machine ∧
      tree.Leads path ∧ e.location.IsInnermost path ∧
      Evaluation.visit .standard tree ⟨machine, 0⟩ =
        .error (.error e.cause e.diagnostic) ⟨machine, 0⟩ ∧
      e.cause.ReportedAt e.location e.diagnostic := by
  intro missing paren statement tree machine e path
  have fails : visit .standard 1 tree machine = .error (.error e) machine := rfl
  have arrives : traced .standard 1 tree machine = .error (.error path e.cause) machine := by
    with_unfolding_all rfl
  obtain ⟨_, _, reached, leads, innermost, _⟩ :=
    (error_at_innermost_place tree).1 _ _ _ _ _ fails
  rw [arrives] at reached
  cases reached
  have thrown : Evaluation.visit .standard tree ⟨machine, 0⟩ =
      .error (.error e.cause e.diagnostic) ⟨machine, 0⟩ := rfl
  obtain ⟨_, _, _, _, reported⟩ := (error_at_innermost_place tree).2.1 _ _ _ _ _ thrown
  exact ⟨fails, arrives, leads, innermost, thrown, reported⟩

end Eval

end Reckoner
