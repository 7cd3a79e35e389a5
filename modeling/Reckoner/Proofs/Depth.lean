import Reckoner.Proofs.Discipline

set_option autoImplicit false

/-!
The limit of the depth only cuts evaluations short. With a lower limit an evaluation goes as with a
higher one, or ends early because it is too deep, and then it has printed the first of the lines
that the other prints. A tree whose height is within the limit is not too deep for it.
-/

namespace Reckoner

/-- The fault of an evaluation that went beyond its limit. -/
def Fault.CutAt (limit : Int) (fault : Fault) : Prop :=
  ∃ place, fault = .error ⟨.tooDeep limit, place⟩

/-- Only the limits of an evaluation make it too deep. -/
theorem Fault.Ordinary.kind_ne_tooDeep {regular : Prop} {fault : Fault}
    (ordinary : fault.Ordinary regular) : fault.toError.cause.kind ≠ .tooDeep := by
  cases fault with
  | error e => exact (Fault.ordinary_error_iff.mp ordinary).2.kind_ne.1
  | breakdown b => rcases ordinary.1 with rfl | rfl <;> exact nofun

namespace Run

variable {α β : Type} {limit : Int}

theorem after_of_ok {step : Run α} {machine next : Machine} {a : α}
    (success : step machine = .ok a next) : step.after machine = next := by
  rw [after, success]

theorem after_of_error {step : Run α} {machine next : Machine} {fault : Fault}
    (failure : step machine = .error fault next) : step.after machine = next := by
  rw [after, failure]

theorem bind_of_ok {step : Run α} {f : α → Run β} {machine next : Machine} {a : α}
    (success : step machine = .ok a next) : (step >>= f) machine = f a next := by
  simp only [Bind.bind, EStateM.bind, success]

theorem bind_of_error {step : Run α} {f : α → Run β} {machine next : Machine} {fault : Fault}
    (failure : step machine = .error fault next) : (step >>= f) machine = .error fault next := by
  simp only [Bind.bind, EStateM.bind, failure]

theorem after_within (place : Location) (step : Run α) (machine : Machine) :
    (Run.within place step).after machine = step.after machine := by
  simp only [after, Run.within]
  cases step machine <;> rfl

/-- From any machine the short step does what the long one does, or it is cut at the limit with no
other lines printed than the long one prints. The long step takes no line back. -/
structure Cuts (limit : Int) (good : α → Prop) (short long : Run α) : Prop where
  grows : ∀ machine, machine.printed <+: (long.after machine).printed
  yields : ∀ machine a next, long machine = .ok a next → good a
  cuts : ∀ machine, short machine = long machine ∨
    ∃ fault next, short machine = .error fault next ∧ fault.CutAt limit ∧
      next.printed <+: (long.after machine).printed

namespace Cuts

/-- A step that takes no line back goes together with itself. -/
theorem refl {good : α → Prop} {step : Run α}
    (keeps : ∀ machine : Machine, Keeps (fun next => machine.printed <+: next.printed)
      (fun _ => True) good step) : Cuts limit good step step where
  grows machine := (keeps machine).after List.prefix_rfl
  yields machine a next success := by
    have kept := keeps machine machine List.prefix_rfl
    rw [success] at kept
    exact kept.1
  cuts _ := Or.inl rfl

/-- Being cut before anything happens. -/
theorem stop {good : α → Prop} {short long : Run α} (steps : Cuts limit good short long) :
    Cuts limit good (Run.fail (.tooDeep limit)) long where
  grows := steps.grows
  yields := steps.yields
  cuts machine := Or.inr ⟨_, machine, rfl, ⟨_, rfl⟩, steps.grows machine⟩

theorem grows_bind {good : α → Prop} {better : β → Prop} {short long : Run α} {f g : α → Run β}
    (first : Cuts limit good short long)
    (next : ∀ a, good a → Cuts limit better (f a) (g a)) (machine : Machine) :
    (long.after machine).printed <+: ((long >>= g).after machine).printed := by
  cases outcome : long machine with
  | ok a middle =>
      have more := (next a (first.yields machine a middle outcome)).grows middle
      rw [after_of_ok outcome]
      simpa only [after, bind_of_ok outcome] using more
  | error fault middle =>
      have same : (long >>= g).after machine = long.after machine := by
        rw [after_of_error outcome, after_of_error (bind_of_error outcome)]
      exact ⟨[], by rw [same, List.append_nil]⟩

/-- Whatever the long step does next, it keeps the lines that the short one had printed. -/
theorem bind {good : α → Prop} {better : β → Prop} {short long : Run α} {f g : α → Run β}
    (first : Cuts limit good short long)
    (next : ∀ a, good a → Cuts limit better (f a) (g a)) :
    Cuts limit better (short >>= f) (long >>= g) where
  grows machine := (first.grows machine).trans (first.grows_bind next machine)
  yields machine b last success := by
    cases outcome : long machine with
    | ok a middle =>
        rw [bind_of_ok outcome] at success
        exact (next a (first.yields machine a middle outcome)).yields middle b last success
    | error fault middle =>
        rw [bind_of_error outcome] at success
        cases success
  cuts machine := by
    rcases first.cuts machine with same | ⟨fault, stopped, failure, cut, fewer⟩
    · cases outcome : long machine with
      | ok a middle =>
          rw [outcome] at same
          have rest := (next a (first.yields machine a middle outcome)).cuts middle
          simpa only [after, bind_of_ok outcome, bind_of_ok same] using rest
      | error fault middle =>
          rw [outcome] at same
          exact Or.inl ((bind_of_error same).trans (bind_of_error outcome).symm)
    · exact Or.inr ⟨fault, stopped, bind_of_error failure, cut,
        fewer.trans (first.grows_bind next machine)⟩

theorem within {good : α → Prop} {short long : Run α} (steps : Cuts limit good short long)
    (place : Location) : Cuts limit good (Run.within place short) (Run.within place long) where
  grows machine := by
    rw [after_within]
    exact steps.grows machine
  yields machine a next success := by
    apply steps.yields machine a next
    cases outcome : long machine with
    | ok b middle => simpa only [Run.within, outcome] using success
    | error fault middle => simp [Run.within, outcome] at success
  cuts machine := by
    rcases steps.cuts machine with same | ⟨_, next, failure, ⟨inner, rfl⟩, fewer⟩
    · exact Or.inl (by simp only [Run.within, same])
    · refine Or.inr ⟨_, next, ?_, ⟨inner.orOuter place, rfl⟩, ?_⟩
      · simp only [Run.within, failure]
        rfl
      · rwa [after_within]

end Cuts

end Run

namespace Eval

variable {t : Tolerance} {stack : Nat} {m n : Int}

/-- Two evaluations of which the first has the lower limit. -/
def cutting (t : Tolerance) (stack : Nat) (m n : Int) : Lockstep t stack m n where
  together good short long := Run.Cuts m good short long
  sound _ := True
  respects := .always t
  pure holds := Run.Cuts.refl fun _ => Run.Keeps.pure holds
  bind := Run.Cuts.bind
  ofExcept computes := Run.Cuts.refl fun _ =>
    Run.Keeps.ofExcept (computes.mono (fun _ good => good) fun _ _ => trivial)
  error _ _ := Run.Cuts.refl fun _ => Run.Keeps.throw trivial

theorem cuts_ofExcept {α : Type} {limit : Int} (result : Except Fault α) :
    Run.Cuts limit (fun _ => True) (Run.ofExcept result) (Run.ofExcept result) := by
  refine Run.Cuts.refl fun _ => Run.Keeps.ofExcept ?_
  cases result <;> trivial

theorem cuts_update {limit : Int} (operation : Scope → Except Fault Scope) :
    Run.Cuts limit (fun _ => True) (Run.update operation) (Run.update operation) := by
  apply Run.Cuts.refl
  intro start
  apply Run.Keeps.update
  intro machine more
  cases operation machine.scope with
  | ok scope => exact more
  | error fault => trivial

theorem cuts_hasVariable {limit : Int} (name : String) :
    Run.Cuts limit (fun _ => True) (Run.hasVariable name) (Run.hasVariable name) :=
  Run.Cuts.refl fun _ _ more => ⟨trivial, more⟩

theorem cuts_lookup {limit : Int} (name : String) :
    Run.Cuts limit (fun _ => True) (Run.lookup name) (Run.lookup name) := by
  refine Run.Cuts.refl fun start => Run.Keeps.get fun machine _ => Run.Keeps.ofExcept ?_
  cases machine.scope.lookup name <;> trivial

theorem cuts_emit {limit : Int} (line : String) :
    Run.Cuts limit (fun _ => True) (Run.emit line) (Run.emit line) :=
  Run.Cuts.refl fun _ _ more => ⟨trivial, more.trans (List.prefix_append _ _)⟩

/-- No form asks for more than that lines stay. -/
theorem cutting_admits (form : Form) : (cutting t stack m n).Admits form := by
  cases form with
  | define name expr => exact ⟨cuts_hasVariable name, fun v _ => cuts_update _⟩
  | assign name expr => exact ⟨cuts_hasVariable name, fun v _ => cuts_update _⟩
  | print expr => exact fun v _ => cuts_emit _
  | number text => exact cuts_ofExcept _
  | imaginary text => exact cuts_ofExcept _
  | identifier name => exact cuts_lookup name
  | juxtaposition number constant names group parenthesized =>
      exact ⟨fun _ _ => cuts_ofExcept _, fun name _ => cuts_lookup name⟩
  | call function arguments =>
      refine ⟨Run.Cuts.refl fun _ _ more => ⟨fun _ _ => trivial, more⟩, fun f _ vs _ => ?_⟩
      exact cuts_ofExcept _
  | _ => trivial

/-- Entering a node is where the lower limit cuts. -/
theorem cutting_enters (le : m ≤ n) (depth : Nat) : (cutting t stack m n).Enters depth := by
  intro place short long steps
  have fails : ∀ fault, Run.Cuts m (cutting t stack m n).SoundResult (throw fault) (throw fault) :=
    fun _ => Run.Cuts.refl fun _ => Run.Keeps.throw trivial
  refine Run.Cuts.within ?_ place
  dsimp only
  by_cases deep : m < depth
  · rw [if_pos deep]
    split
    · exact (fails _).stop
    · split
      · exact (fails _).stop
      · exact steps.stop
  · rw [if_neg deep, if_neg (by omega : ¬ n < depth)]
    split
    · exact fails _
    · exact steps

/-- With a lower limit a visit is the same or is cut short. -/
theorem cutting_visits (le : m ≤ n) (depth : Nat) (node : Node) :
    (cutting t stack m n).Visits depth node :=
  (cutting t stack m n).together_visit node depth (fun inner _ => cutting_admits inner.form)
    (fun reached _ _ => cutting_enters le reached)

end Eval

def shallow (t : Tolerance) : Discipline t :=
  .indifferent t (fun _ => True) (fun cause => cause.kind ≠ .tooDeep)
    fun _ ordinary => ordinary.kind_ne_tooDeep

theorem shallow_admits (t : Tolerance) (form : Form) : (shallow t).Admits form where
  define _ _ _ _ _ := (shallow t).keeps_define fun _ _ _ => trivial
  assign _ _ _ _ _ := (shallow t).keeps_assign fun _ _ _ => trivial
  print _ _ _ _ _ := ⟨trivial, trivial⟩
  numeral text _ _ failed := by
    rcases (Literal.number_computes text).error_fair failed with rfl | rfl <;> exact nofun
  call _ _ _ f _ vs _ failed := ((Builtin.apply_computes t f vs).error_fair failed).kind_ne_tooDeep

theorem shallow_allows (t : Tolerance) {stack : Nat} {limit : Int} {depth : Nat}
    (within : (depth : Int) ≤ limit) (room : depth ≤ stack) :
    (shallow t).Allows stack limit depth :=
  ⟨fun deep => absurd deep (by omega), fun exhausted => absurd exhausted (by omega)⟩

namespace Session

/-- What can be done with a session. -/
inductive Step where
  | visit (node : Node)
  | evaluate (node : Node)
  | run (node : Node)

/-- The session after a step, however the step ended. -/
def advance (session : Session) : Step → Session
  | .visit node => (session.visit node).session
  | .evaluate node => (session.evaluate node).session
  | .run node => (session.run node).session

def after (session : Session) (history : List Step) : Session :=
  history.foldl advance session

def withLimit (session : Session) (limit : Int) : Session :=
  { session with settings := { session.settings with maxDepth := limit } }

theorem settings_perform {α : Type} (session : Session) (step : Evaluation α) :
    (session.perform step).session.settings = session.settings := by
  unfold perform
  split <;> rfl

theorem settings_advance (session : Session) (step : Step) :
    (session.advance step).settings = session.settings := by
  cases step with
  | run node => exact settings_perform session.reset _
  | _ => exact settings_perform session _

theorem settings_after (session : Session) (history : List Step) :
    (session.after history).settings = session.settings := by
  induction history generalizing session with
  | nil => rfl
  | cons step rest ih => exact (ih (session.advance step)).trans (settings_advance session step)

theorem depth_perform {α : Type} (session : Session) (step : Run α) :
    (session.perform (.ofRun step)).session.depth = session.depth := by
  rw [perform_ofRun]
  split <;> rfl

/-- The counter is back where it was, whatever a visit comes to. -/
theorem depth_visit (session : Session) (node : Node) :
    (session.visit node).session.depth = session.depth := by
  rw [visit_eq, depth_perform]

theorem depth_evaluate (session : Session) (node : Node) :
    (session.evaluate node).session.depth = session.depth := by
  rw [evaluate_eq, depth_perform]

/-- A run starts with the counter at zero, and so it ends. -/
theorem depth_run (session : Session) (node : Node) : (session.run node).session.depth = 0 :=
  depth_visit session.reset node

theorem depth_advance (session : Session) (step : Step) :
    (session.advance step).depth = session.depth ∨ (session.advance step).depth = 0 := by
  cases step with
  | visit node => exact Or.inl (depth_visit session node)
  | evaluate node => exact Or.inl (depth_evaluate session node)
  | run node => exact Or.inr (depth_run session node)

theorem depth_after {session : Session} (start : session.depth = 0) (history : List Step) :
    (session.after history).depth = 0 := by
  induction history generalizing session with
  | nil => exact start
  | cons step rest ih =>
      apply ih
      rcases depth_advance session step with same | zero
      · exact same.trans start
      · exact zero

end Session

/-- The outcome `short` is the outcome `long`, or it failed by a `cut` and printed no more. -/
def Outcome.Cuts {ε α : Type} (cut : ε → Prop) (short long : Outcome ε α) : Prop :=
  (short.result = long.result ∧ short.printed = long.printed ∧
    short.session.scope = long.session.scope) ∨
  ((∃ e, short.result = .error e ∧ cut e) ∧ short.printed <+: long.printed)

theorem Outcome.Cuts.mapError {ε ε' α : Type} {cut : ε → Prop} {cut' : ε' → Prop} {f : ε → ε'}
    {short long : Outcome ε α} (cuts : short.Cuts cut long) (maps : ∀ e, cut e → cut' (f e)) :
    (short.mapError f).Cuts cut' (long.mapError f) := by
  rcases cuts with ⟨result, same⟩ | ⟨⟨e, failed, cut⟩, fewer⟩
  · exact Or.inl ⟨congrArg (Except.mapError f) result, same⟩
  · exact Or.inr ⟨⟨f e, congrArg (Except.mapError f) failed, maps e cut⟩, fewer⟩

namespace Session

theorem printed_perform {α : Type} (session : Session) (step : Run α) :
    (session.perform (.ofRun step)).printed = (step.after ⟨session.scope, []⟩).printed := by
  rw [perform_ofRun]
  unfold Run.after
  split <;> simp only [*]

theorem perform_cuts {α : Type} {limit : Int} {good : α → Prop} {short long : Run α}
    (steps : Run.Cuts limit good short long) (session other : Session)
    (same : other.scope = session.scope) :
    (session.perform (.ofRun short)).Cuts (Fault.CutAt limit) (other.perform (.ofRun long)) := by
  rcases steps.cuts ⟨session.scope, []⟩ with equal | ⟨fault, next, failed, cut, fewer⟩
  · refine Or.inl ?_
    rw [perform_ofRun, perform_ofRun, same, equal]
    split <;> exact ⟨rfl, rfl, rfl⟩
  · refine Or.inr ⟨⟨fault, ?_, cut⟩, ?_⟩
    · rw [perform_ofRun, failed]
    · rw [printed_perform, printed_perform, same, Run.after_of_error failed]
      exact fewer

variable {m n : Int}

theorem visit_cuts (le : m ≤ n) {session : Session} (limit : session.settings.maxDepth = m)
    (node : Node) :
    (session.visit node).Cuts (Fault.CutAt m) ((session.withLimit n).visit node) := by
  subst limit
  rw [visit_eq, visit_eq]
  exact perform_cuts (Eval.cutting_visits le (session.depth + 1) node) session (session.withLimit n)
    rfl

theorem evaluate_cuts (le : m ≤ n) {session : Session} (limit : session.settings.maxDepth = m)
    (node : Node) :
    (session.evaluate node).Cuts (Fault.CutAt m) ((session.withLimit n).evaluate node) := by
  subst limit
  rw [evaluate_eq, evaluate_eq]
  exact perform_cuts ((Eval.cutting _ _ _ n).together_evaluate
    (Eval.cutting_visits le (session.depth + 1) node)) session (session.withLimit n) rfl

theorem run_cuts (le : m ≤ n) {session : Session} (limit : session.settings.maxDepth = m)
    (node : Node) :
    (session.run node).Cuts (·.cause = .tooDeep m) ((session.withLimit n).run node) := by
  apply (visit_cuts le (show session.reset.settings.maxDepth = m from limit) node).mapError
  rintro _ ⟨place, rfl⟩
  rfl

/-- A tree that is not higher than the limit is not too deep, if nothing is in progress. -/
theorem visit_shallow {session : Session} (start : session.depth = 0) {node : Node}
    (within : (node.height : Int) ≤ session.settings.maxDepth)
    (room : node.height ≤ session.settings.stackLimit) {fault : Fault}
    (failed : (session.visit node).result = .error fault) :
    fault.toError.cause.kind ≠ .tooDeep := by
  have kept := session.visit_keeps (shallow _) node (fun inner _ => shallow_admits _ inner.form)
    (fun reached _ below => shallow_allows _ (by omega) (by omega)) trivial
  exact kept.2.1 fault failed

theorem evaluate_shallow {session : Session} (start : session.depth = 0) {node : Node}
    (within : (node.height : Int) ≤ session.settings.maxDepth)
    (room : node.height ≤ session.settings.stackLimit) {fault : Fault}
    (failed : (session.evaluate node).result = .error fault) :
    fault.toError.cause.kind ≠ .tooDeep := by
  have kept := session.evaluate_keeps (shallow _) node (fun inner _ => shallow_admits _ inner.form)
    (fun reached _ below => shallow_allows _ (by omega) (by omega)) trivial
  exact kept.2.1 fault failed

/-- A run starts with nothing in progress. -/
theorem run_shallow {session : Session} {node : Node}
    (within : (node.height : Int) ≤ session.settings.maxDepth)
    (room : node.height ≤ session.settings.stackLimit) {e : Error}
    (failed : (session.run node).result = .error e) : e.cause.kind ≠ .tooDeep := by
  obtain ⟨fault, visited, rfl⟩ := run_eq_error.mp failed
  exact visit_shallow (show session.reset.depth = 0 from rfl) within room visited

end Session

/-- The limit of the depth only cuts short. Every step puts the counter of a session back where it
was, a run to zero, however the step ends; so after any steps, failed ones among them, the counter
is at zero if it was at first. Whatever the session with the limit `m` does next is what it would do
with a greater limit `n`, or it is cut, and then it has printed the first of the lines. It is not
cut if the tree is no higher than `m`, and there is room for it on the stack. -/
theorem limit_only_cuts (start : Session) (history : List Session.Step) {m n : Int} (le : m ≤ n)
    (node : Node) :
    let session := (start.withLimit m).after history
    let other := session.withLimit n
    ((session.visit node).session.depth = session.depth ∧
      (session.evaluate node).session.depth = session.depth ∧
      (session.run node).session.depth = 0) ∧
    (start.depth = 0 → session.depth = 0) ∧
    ((session.visit node).Cuts (Fault.CutAt m) (other.visit node) ∧
      (session.evaluate node).Cuts (Fault.CutAt m) (other.evaluate node) ∧
      (session.run node).Cuts (·.cause = .tooDeep m) (other.run node)) ∧
    (start.depth = 0 → node.height ≤ m → node.height ≤ start.settings.stackLimit →
      (∀ fault, (session.visit node).result = .error fault →
        fault.toError.cause.kind ≠ .tooDeep) ∧
      (∀ fault, (session.evaluate node).result = .error fault →
        fault.toError.cause.kind ≠ .tooDeep) ∧
      ∀ e, (session.run node).result = .error e → e.cause.kind ≠ .tooDeep) := by
  intro session other
  have same : session.settings = { start.settings with maxDepth := m } :=
    Session.settings_after _ history
  have limit : session.settings.maxDepth = m := by rw [same]
  have stack : session.settings.stackLimit = start.settings.stackLimit := by rw [same]
  have idle (zero : start.depth = 0) : session.depth = 0 :=
    Session.depth_after (show (start.withLimit m).depth = 0 from zero) history
  refine ⟨⟨?_, ?_, ?_⟩, idle, ⟨?_, ?_, ?_⟩, fun zero within room => ⟨?_, ?_, ?_⟩⟩
  · exact session.depth_visit node
  · exact session.depth_evaluate node
  · exact session.depth_run node
  · exact Session.visit_cuts le limit node
  · exact Session.evaluate_cuts le limit node
  · exact Session.run_cuts le limit node
  · intro fault failed
    exact Session.visit_shallow (idle zero) (limit.symm ▸ within) (stack.symm ▸ room) failed
  · intro fault failed
    exact Session.evaluate_shallow (idle zero) (limit.symm ▸ within) (stack.symm ▸ room) failed
  · intro e failed
    exact Session.run_shallow (limit.symm ▸ within) (stack.symm ▸ room) failed

/-- After a failure, `print 1; print ((2))` with the limit three: the second statement is cut. -/
theorem limit_only_cuts_nested :
    let here := Node.mk Location.unknown
    let one := here (.print (here (.number "1")))
    let two := here (.print (here (.paren (here (.paren (here (.number "2")))))))
    let program := here (.program [one, two])
    let start := Session.fresh .standard ⟨Bindings.empty⟩
    let session := (start.withLimit 3).after [.visit (here (.paren (here (.misplaced "?"))))]
    (3 : Int) ≤ 500 ∧ start.depth = 0 ∧ session.depth = 0 ∧
      (session.run program).Cuts (·.cause = .tooDeep 3) ((session.withLimit 500).run program) ∧
      (session.run program).printed = ["1"] ∧ (session.visit program).session.depth = 0 ∧
      ((session.withLimit 500).run program).printed = ["1", "2"] ∧
      one.height ≤ (3 : Int) ∧ one.height ≤ start.settings.stackLimit ∧
      ∀ e, (session.run one).result = .error e → e.cause.kind ≠ .tooDeep := by
  intro here one two program start session
  have height : one.height = 2 := by
    simp [one, here, Node.height_mk, Form.children, Form.tokenHeight]
  have room : one.height ≤ start.settings.stackLimit := by
    rw [height]
    decide
  obtain ⟨⟨back, -, -⟩, idle, cuts, -⟩ := limit_only_cuts start
    [.visit (here (.paren (here (.misplaced "?"))))] (by decide : (3 : Int) ≤ 500) program
  obtain ⟨-, -, -, shallow⟩ := limit_only_cuts start
    [.visit (here (.paren (here (.misplaced "?"))))] (by decide : (3 : Int) ≤ 500) one
  exact ⟨by decide, rfl, idle rfl, cuts.2.2, by decide +kernel, back.trans (idle rfl),
    by decide +kernel, by omega, room, (shallow rfl (by omega) room).2.2⟩

end Reckoner
