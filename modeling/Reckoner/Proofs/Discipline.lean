import Reckoner.Proofs.Counter

set_option autoImplicit false

namespace Reckoner

namespace Run

variable {α β : Type} {invariant : Machine → Prop} {fair : Fault → Prop}

/-- The machine that a step leaves behind, whether it succeeds or fails. -/
def after (step : Run α) (machine : Machine) : Machine :=
  match step machine with
  | .ok _ after | .error _ after => after

theorem update_of_ok {operation : Scope → Except Fault Scope} {machine : Machine} {scope : Scope}
    (success : operation machine.scope = .ok scope) :
    Run.update operation machine = .ok () { machine with scope := scope } := by
  change (Run.ofExcept (operation machine.scope) >>= fun scope =>
    set { machine with scope := scope }) machine = _
  rw [success]
  rfl

theorem update_of_error {operation : Scope → Except Fault Scope} {machine : Machine} {fault : Fault}
    (failure : operation machine.scope = .error fault) :
    Run.update operation machine = .error fault machine := by
  change (Run.ofExcept (operation machine.scope) >>= fun scope =>
    set { machine with scope := scope }) machine = _
  rw [failure]
  rfl

/-- From a machine that meets the invariant, the step ends with one that does, with a `good` result
or with a `fair` fault. -/
def Keeps (invariant : Machine → Prop) (fair : Fault → Prop) (good : α → Prop) (step : Run α) :
    Prop :=
  ∀ machine, invariant machine →
    match step machine with
    | .ok a after => good a ∧ invariant after
    | .error fault after => fair fault ∧ invariant after

namespace Keeps

theorem pure {good : α → Prop} {a : α} (holds : good a) :
    Keeps invariant fair good (Pure.pure a) :=
  fun _ invariant => ⟨holds, invariant⟩

theorem throw {good : α → Prop} {fault : Fault} (holds : fair fault) :
    Keeps invariant fair good (throw fault) :=
  fun _ invariant => ⟨holds, invariant⟩

theorem bind {good : α → Prop} {better : β → Prop} {first : Run α} {next : α → Run β}
    (keeps : Keeps invariant fair good first)
    (continues : ∀ a, good a → Keeps invariant fair better (next a)) :
    Keeps invariant fair better (first >>= next) := by
  intro machine start
  have middle := keeps machine start
  simp only [Bind.bind, EStateM.bind]
  cases outcome : first machine with
  | ok a after =>
      rw [outcome] at middle
      exact continues a middle.1 after middle.2
  | error fault after =>
      rw [outcome] at middle
      exact middle

theorem ofExcept {good : α → Prop} {result : Except Fault α}
    (computes : Computes good fair result) :
    Keeps invariant fair good (Run.ofExcept result) := by
  intro machine start
  cases result with
  | ok a => exact ⟨computes, start⟩
  | error fault => exact ⟨computes, start⟩

theorem within {good : α → Prop} {step : Run α} (keeps : Keeps invariant fair good step)
    (place : Location) (moves : ∀ fault, fair fault → fair (fault.within place)) :
    Keeps invariant fair good (Run.within place step) := by
  intro machine start
  have inner := keeps machine start
  simp only [Run.within]
  cases outcome : step machine with
  | ok a after =>
      rw [outcome] at inner
      exact inner
  | error fault after =>
      rw [outcome] at inner
      exact ⟨moves fault inner.1, inner.2⟩

/-- Reading the machine: the rest of the step knows that it meets the invariant. -/
theorem get {good : α → Prop} {next : Machine → Run α}
    (continues : ∀ machine, invariant machine → Keeps invariant fair good (next machine)) :
    Keeps invariant fair good (MonadState.get >>= next) :=
  fun machine start => continues machine start machine start

theorem update {operation : Scope → Except Fault Scope}
    (keeps : ∀ machine, invariant machine →
      Computes (fun scope => invariant { machine with scope := scope }) fair
        (operation machine.scope)) :
    Keeps invariant fair (fun _ => True) (Run.update operation) := by
  intro machine start
  have done := keeps machine start
  cases outcome : operation machine.scope with
  | ok scope =>
      rw [outcome] at done
      rw [update_of_ok outcome]
      exact ⟨trivial, done⟩
  | error fault =>
      rw [outcome] at done
      rw [update_of_error outcome]
      exact ⟨done, start⟩

theorem lookup {good : Value → Prop} (regular : Prop) {name : String}
    (ordinary : ∀ fault, Fault.Ordinary regular fault → fair fault)
    (resolves : ∀ machine v, invariant machine → machine.scope.resolve? name = some v → good v) :
    Keeps invariant fair good (Run.lookup name) :=
  get fun machine holds => ofExcept ((Scope.lookup_computes regular machine.scope name).mono
    (fun v found => resolves machine v holds found) ordinary)

theorem define (regular : Prop) {name : String} {v : Value}
    (ordinary : ∀ fault, Fault.Ordinary regular fault → fair fault)
    (binds : ∀ machine, invariant machine → machine.scope.hasVariable name = false →
      invariant { machine with scope := machine.scope.bind name v }) :
    Keeps invariant fair (fun _ => True) (Run.define name v) := by
  apply update
  intro machine holds
  apply (Scope.define_computes regular machine.scope name v).mono _ ordinary
  rintro after ⟨unbound, rfl⟩
  exact binds machine holds unbound

theorem assign (regular : Prop) {name : String} {v : Value}
    (ordinary : ∀ fault, Fault.Ordinary regular fault → fair fault)
    (binds : ∀ machine, invariant machine → machine.scope.hasVariable name = true →
      invariant { machine with scope := machine.scope.bind name v }) :
    Keeps invariant fair (fun _ => True) (Run.assign name v) := by
  apply update
  intro machine holds
  apply (Scope.assign_computes regular machine.scope name v).mono _ ordinary
  rintro after ⟨bound, rfl⟩
  exact binds machine holds bound

theorem after {good : α → Prop} {step : Run α} (keeps : Keeps invariant fair good step)
    {machine : Machine} (start : invariant machine) : invariant (step.after machine) := by
  have kept := keeps machine start
  unfold Run.after
  cases outcome : step machine with
  | ok a after =>
      rw [outcome] at kept
      exact kept.2
  | error fault after =>
      rw [outcome] at kept
      exact kept.2

end Keeps

end Run

/-- The numeral that a form contains. -/
def Form.numeral? : Form → Option String
  | .number text => some text
  | .imaginary text => some (Literal.withoutUnit text)
  | .juxtaposition text _ _ _ _ => text
  | _ => none

/-- What is kept by all steps of an evaluation with the tolerance `t`: an invariant of the machine,
a property of the values that arise, and a property of the faults. -/
structure Discipline (t : Tolerance) where
  invariant : Machine → Prop
  sound : Value → Prop
  fair : Fault → Prop
  number : ∀ x, sound (.number x)
  boolean : ∀ b, sound (.boolean b)
  text : ∀ s, sound (.text s)
  list : ∀ vs, (∀ v ∈ vs, sound v) → sound (.list vs)
  collapse : ∀ z, sound (t.collapse z)
  resolve : ∀ machine name v, invariant machine → machine.scope.resolve? name = some v → sound v
  ordinary : ∀ fault, fault.Ordinary (0 ≤ t.bound) → fair fault
  /-- Where an error comes from makes no difference. -/
  moved : ∀ cause place other, fair (.error ⟨cause, place⟩) → fair (.error ⟨cause, other⟩)

namespace Discipline

/-- The discipline that asks nothing of values, and of faults only what they are reported as. -/
def indifferent (t : Tolerance) (invariant : Machine → Prop) (fair : Cause → Prop)
    (ordinary : ∀ fault : Fault, fault.Ordinary (0 ≤ t.bound) → fair fault.toError.cause) :
    Discipline t where
  invariant := invariant
  sound _ := True
  fair fault := fair fault.toError.cause
  number _ := trivial
  boolean _ := trivial
  text _ := trivial
  list _ _ := trivial
  collapse _ := trivial
  resolve _ _ _ _ _ := trivial
  ordinary := ordinary
  moved _ _ _ holds := holds

variable {t : Tolerance} (D : Discipline t)

theorem sound_of_collapsed_or_number {v : Value} (kind : v.IsCollapsed t ∨ v.IsNumber) :
    D.sound v := by
  rcases kind with ⟨z, rfl⟩ | ⟨x, rfl⟩
  · exact D.collapse z
  · exact D.number x

theorem respects : Arith.Respects t D.sound where
  number := D.number
  boolean := D.boolean
  text := D.text
  list := D.list
  add _ _ success :=
    D.sound_of_collapsed_or_number (.inl ((Arith.add_computes t True _ _).ok_good success))
  subtract _ _ success :=
    D.sound_of_collapsed_or_number (.inl ((Arith.subtract_computes t True _ _).ok_good success))
  multiply _ _ success :=
    D.sound_of_collapsed_or_number (.inl ((Arith.multiply_computes t True _ _).ok_good success))
  divide _ _ success :=
    D.sound_of_collapsed_or_number (.inl ((Arith.divide_computes t _ _).ok_good success))
  power _ _ success :=
    D.sound_of_collapsed_or_number ((Arith.power_computes t _ _).ok_good success)

theorem fair_within (place : Location) (fault : Fault) (fair : D.fair fault) :
    D.fair (fault.within place) := by
  cases fault with
  | error e => exact D.moved e.cause e.location _ fair
  | breakdown b => exact fair

def Keeps {α : Type} (good : α → Prop) (step : Run α) : Prop :=
  Run.Keeps D.invariant D.fair good step

/-- An evaluation in lockstep with itself. -/
def lockstep (stack : Nat) (limit : Int) : Lockstep t stack limit limit where
  together good left _ := D.Keeps good left
  sound := D.sound
  respects := D.respects
  pure := Run.Keeps.pure
  bind := Run.Keeps.bind
  ofExcept computes := Run.Keeps.ofExcept (computes.mono (fun _ good => good) D.ordinary)
  error {_ _ cause} place ordinary :=
    Run.Keeps.throw (D.moved cause _ place (D.ordinary (.ofCause cause) ordinary))

/-- What is asked of a form by itself: its effects keep the discipline, and the faults of its
numeral and of the function that it calls are fair. -/
structure Admits (form : Form) : Prop where
  define : ∀ name expr, form = .define name expr → ∀ v, D.sound v →
    D.Keeps (fun _ => True) (Run.define name v)
  assign : ∀ name expr, form = .assign name expr → ∀ v, D.sound v →
    D.Keeps (fun _ => True) (Run.assign name v)
  print : ∀ expr, form = .print expr → ∀ line, D.Keeps (fun _ => True) (Run.emit line)
  numeral : ∀ text, form.numeral? = some text → ∀ fault, Literal.number text = .error fault →
    D.fair fault
  call : ∀ function arguments, form = .call function arguments →
    ∀ f, Builtin.ofName? function = some f → ∀ vs fault, f.apply t vs = .error fault → D.fair fault

/-- Failing at a depth that is not allowed is fair. -/
def Allows (stack : Nat) (limit : Int) (depth : Nat) : Prop :=
  (limit < depth → D.fair (.ofCause (.tooDeep limit))) ∧
    (stack < depth → D.fair (.breakdown .stackExhausted))

theorem keeps_hasVariable (name : String) : D.Keeps (fun _ => True) (Run.hasVariable name) :=
  fun _ holds => ⟨trivial, holds⟩

theorem keeps_lookup (name : String) : D.Keeps D.sound (Run.lookup name) :=
  Run.Keeps.lookup _ D.ordinary fun machine v holds found => D.resolve machine name v holds found

theorem keeps_resolve? (stack : Nat) (limit : Int) (name : String) :
    D.Keeps (D.lockstep stack limit).SoundResult (Run.resolve? name) :=
  Run.Keeps.get fun machine holds => Run.Keeps.pure fun v found =>
    D.resolve machine name v holds found

theorem keeps_define {name : String} {v : Value}
    (binds : ∀ machine, D.invariant machine → machine.scope.hasVariable name = false →
      D.invariant { machine with scope := machine.scope.bind name v }) :
    D.Keeps (fun _ => True) (Run.define name v) :=
  Run.Keeps.define _ D.ordinary binds

theorem keeps_assign {name : String} {v : Value}
    (binds : ∀ machine, D.invariant machine → machine.scope.hasVariable name = true →
      D.invariant { machine with scope := machine.scope.bind name v }) :
    D.Keeps (fun _ => True) (Run.assign name v) :=
  Run.Keeps.assign _ D.ordinary binds

theorem computes_number {text : String}
    (fair : ∀ fault, Literal.number text = .error fault → D.fair fault) :
    Computes (fun _ => True) D.fair (Literal.number text) := by
  cases outcome : Literal.number text with
  | ok x => trivial
  | error fault => exact fair fault outcome

theorem keeps_number {text : String}
    (fair : ∀ fault, Literal.number text = .error fault → D.fair fault) :
    D.Keeps (fun _ => True) (Run.ofExcept (Literal.number text)) :=
  Run.Keeps.ofExcept (D.computes_number fair)

theorem keeps_imaginary {text : String}
    (fair : ∀ fault, Literal.number (Literal.withoutUnit text) = .error fault → D.fair fault) :
    D.Keeps D.sound (Run.ofExcept (Literal.imaginary t text)) := by
  apply Run.Keeps.ofExcept
  exact (Literal.factor_computes (D.computes_number fair)).map fun x _ => D.collapse ⟨0, x⟩

theorem keeps_apply {f : Builtin} {vs : List Value}
    (fair : ∀ fault, f.apply t vs = .error fault → D.fair fault) :
    D.Keeps D.sound (Run.ofExcept (f.apply t vs)) := by
  apply Run.Keeps.ofExcept
  cases outcome : f.apply t vs with
  | ok v => exact D.sound_of_collapsed_or_number ((Builtin.apply_computes t f vs).ok_good outcome)
  | error fault => exact fair fault outcome

theorem lockstep_admits (stack : Nat) (limit : Int) {form : Form} (admits : D.Admits form) :
    (D.lockstep stack limit).Admits form := by
  cases form with
  | define name expr =>
      exact ⟨D.keeps_hasVariable name, admits.define name expr rfl⟩
  | assign name expr =>
      exact ⟨D.keeps_hasVariable name, admits.assign name expr rfl⟩
  | print expr => exact fun v _ => admits.print expr rfl (Display.text t v)
  | number text => exact D.keeps_number (admits.numeral text rfl)
  | imaginary text => exact D.keeps_imaginary (admits.numeral _ rfl)
  | identifier name => exact D.keeps_lookup name
  | juxtaposition number constant names group parenthesized =>
      refine ⟨fun text present => D.keeps_number (admits.numeral text present), fun name _ => ?_⟩
      exact D.keeps_lookup name
  | call function arguments =>
      refine ⟨D.keeps_resolve? stack limit function, fun f known vs _ => ?_⟩
      exact D.keeps_apply (admits.call function arguments rfl f known vs)
  | _ => trivial

theorem lockstep_enters {stack : Nat} {limit : Int} {depth : Nat}
    (allows : D.Allows stack limit depth) : (D.lockstep stack limit).Enters depth := by
  apply (D.lockstep stack limit).enters_of_within
  · intro place step _ keeps
    exact Run.Keeps.within keeps place (D.fair_within place)
  · exact fun deep _ holds => ⟨allows.1 deep, holds⟩
  · exact fun exhausted _ holds => ⟨allows.2 exhausted, holds⟩

/-- Every visit keeps the discipline, however it ends. -/
theorem keeps_visit (stack : Nat) (limit : Int) (depth : Nat) (node : Node)
    (admits : ∀ inner ∈ node.nodes, D.Admits inner.form)
    (allows : ∀ reached, depth ≤ reached → reached < depth + node.height →
      D.Allows stack limit reached) :
    D.Keeps (fun result => ∀ v, result = some v → D.sound v)
      (Eval.visit ⟨⟨t, limit⟩, stack⟩ depth node) :=
  (D.lockstep stack limit).together_visit node depth
    (fun inner inside => D.lockstep_admits stack limit (admits inner inside))
    (fun reached above below => D.lockstep_enters (allows reached above below))

theorem keeps_evaluate (stack : Nat) (limit : Int) (depth : Nat) (node : Node)
    (admits : ∀ inner ∈ node.nodes, D.Admits inner.form)
    (allows : ∀ reached, depth ≤ reached → reached < depth + node.height →
      D.Allows stack limit reached) :
    D.Keeps D.sound (Eval.evaluate ⟨⟨t, limit⟩, stack⟩ depth node) :=
  (D.lockstep stack limit).together_evaluate (D.keeps_visit stack limit depth node admits allows)

end Discipline

namespace Session

/-- What a step keeps, the session that performs it keeps. -/
theorem perform_keeps {α : Type} {invariant : Machine → Prop} {fair : Fault → Prop}
    {good : α → Prop} {step : Run α} (keeps : Run.Keeps invariant fair good step)
    (session : Session) (start : invariant ⟨session.scope, []⟩) :
    (∀ a, (session.perform (.ofRun step)).result = .ok a → good a) ∧
      (∀ fault, (session.perform (.ofRun step)).result = .error fault → fair fault) ∧
      invariant ⟨(session.perform (.ofRun step)).session.scope,
        (session.perform (.ofRun step)).printed⟩ := by
  have kept := keeps _ start
  rw [perform_ofRun]
  cases outcome : step ⟨session.scope, []⟩ with
  | ok a after =>
      rw [outcome] at kept
      refine ⟨?_, nofun, kept.2⟩
      rintro _ ⟨⟩
      exact kept.1
  | error fault after =>
      rw [outcome] at kept
      refine ⟨nofun, ?_, kept.2⟩
      rintro _ ⟨⟩
      exact kept.1

section

variable (session : Session) (D : Discipline session.settings.tolerance) (node : Node)
  (admits : ∀ inner ∈ node.nodes, D.Admits inner.form)
  (allows : ∀ reached, session.depth < reached → reached ≤ session.depth + node.height →
    D.Allows session.settings.stackLimit session.settings.maxDepth reached)
  (start : D.invariant ⟨session.scope, []⟩)

include admits allows start

theorem visit_keeps :
    (∀ result, (session.visit node).result = .ok result → ∀ v, result = some v → D.sound v) ∧
      (∀ fault, (session.visit node).result = .error fault → D.fair fault) ∧
      D.invariant ⟨(session.visit node).session.scope, (session.visit node).printed⟩ := by
  rw [visit_eq]
  exact session.perform_keeps (D.keeps_visit session.settings.stackLimit session.settings.maxDepth
    (session.depth + 1) node admits fun reached _ _ => allows reached (by omega) (by omega)) start

theorem evaluate_keeps :
    (∀ v, (session.evaluate node).result = .ok v → D.sound v) ∧
      (∀ fault, (session.evaluate node).result = .error fault → D.fair fault) ∧
      D.invariant ⟨(session.evaluate node).session.scope, (session.evaluate node).printed⟩ := by
  rw [evaluate_eq]
  exact session.perform_keeps (D.keeps_evaluate session.settings.stackLimit
    session.settings.maxDepth (session.depth + 1) node admits
    fun reached _ _ => allows reached (by omega) (by omega)) start

end

theorem run_eq_ok {session : Session} {node : Node} {result : Option Value} :
    (session.run node).result = .ok result ↔ (session.reset.visit node).result = .ok result := by
  change (session.reset.visit node).result.mapError Fault.toError = .ok result ↔ _
  cases (session.reset.visit node).result with
  | ok a =>
      change Except.ok a = .ok result ↔ _
      simp only [Except.ok.injEq]
  | error fault => exact ⟨nofun, nofun⟩

theorem run_eq_error {session : Session} {node : Node} {e : Error} :
    (session.run node).result = .error e ↔
      ∃ fault, (session.reset.visit node).result = .error fault ∧ fault.toError = e := by
  change (session.reset.visit node).result.mapError Fault.toError = .error e ↔ _
  cases (session.reset.visit node).result with
  | ok a => exact ⟨nofun, nofun⟩
  | error fault =>
      change Except.error fault.toError = .error e ↔ _
      simp only [Except.error.injEq, exists_eq_left']

end Session

end Reckoner
