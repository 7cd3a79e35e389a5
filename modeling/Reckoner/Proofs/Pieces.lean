import Reckoner.Proofs.Depth
import Reckoner.Proofs.Parallel

set_option autoImplicit false

namespace Reckoner

/-- The machine as it would be had the lines been printed before all others. -/
def Machine.onto (lines : List String) (machine : Machine) : Machine :=
  { machine with printed := lines ++ machine.printed }

namespace Run

variable {α : Type} {lines : List String} {good : α → Prop}

/-- With the lines printed before it the second step goes like the first one without them. -/
def Continues (lines : List String) (good : α → Prop) (step other : Run α) : Prop :=
  Parallel Eq (fun machine next => next = machine.onto lines) good step other

namespace Continues

theorem ofExcept {fair : Fault → Prop} {result : Except Fault α}
    (computes : Computes good fair result) :
    Continues lines good (Run.ofExcept result) (Run.ofExcept result) := by
  cases result with
  | ok a => exact Parallel.pure computes
  | error fault => exact Parallel.throw rfl

theorem ofAnyExcept (result : Except Fault α) :
    Continues lines (fun _ => True) (Run.ofExcept result) (Run.ofExcept result) := by
  have computes : Computes (fun _ => True) (fun _ => True) result := by cases result <;> trivial
  exact ofExcept computes

/-- Reading something off the variables. -/
theorem consult (read : Scope → α) (holds : ∀ scope, good (read scope)) :
    Continues lines good (do return read (← get).scope) (do return read (← get).scope) := by
  rintro machine _ rfl
  exact .ok (holds machine.scope) rfl

theorem lookup (name : String) :
    Continues lines (fun _ => True) (Run.lookup name) (Run.lookup name) := by
  rintro machine _ rfl
  exact ofAnyExcept (machine.scope.lookup name) machine _ rfl

theorem update (operation : Scope → Except Fault Scope) :
    Continues lines (fun _ => True) (Run.update operation) (Run.update operation) := by
  rintro machine _ rfl
  have scopes : operation (machine.onto lines).scope = operation machine.scope := rfl
  cases outcome : operation machine.scope with
  | ok scope =>
      rw [update_of_ok outcome, update_of_ok (scopes.trans outcome)]
      exact .ok trivial rfl
  | error fault =>
      rw [update_of_error outcome, update_of_error (scopes.trans outcome)]
      exact .error rfl rfl

theorem emit (line : String) :
    Continues lines (fun _ => True) (Run.emit line) (Run.emit line) := by
  rintro machine _ rfl
  exact .ok trivial (congrArg (Machine.mk machine.scope) (List.append_assoc _ _ _))

theorem within {step other : Run α} (continues : Continues lines good step other)
    (place : Location) : Continues lines good (Run.within place step) (Run.within place other) := by
  intro machine next related
  have ends := continues machine next related
  unfold Run.within
  generalize step machine = outcome, other next = another at ends ⊢
  cases ends with
  | ok holds related => exact .ok holds related
  | error same related => exact .error (congrArg (·.within place) same) related

end Continues

theorem within_bind {β : Type} (place : Location) (first : Run α) (next : α → Run β) :
    within place (first >>= next) = within place first >>= fun a => within place (next a) := by
  funext machine
  simp only [within, Bind.bind, EStateM.bind]
  cases first machine with
  | ok a after => rfl
  | error fault after => rfl

end Run

namespace Eval

variable {t : Tolerance} {stack : Nat} {limit : Int} {lines : List String}

def continuing (t : Tolerance) (stack : Nat) (limit : Int) (lines : List String) :
    Lockstep t stack limit limit where
  together := Run.Continues lines
  sound _ := True
  respects := .always t
  pure := Parallel.pure
  bind := Parallel.bind
  ofExcept := Run.Continues.ofExcept
  error _ _ := Parallel.throw rfl

theorem continuing_admits (form : Form) : (continuing t stack limit lines).Admits form := by
  cases form with
  | define name expr | assign name expr =>
      exact ⟨.consult (·.hasVariable name) fun _ => trivial, fun _ _ => .update _⟩
  | print expr => exact fun _ _ => .emit _
  | number text | imaginary text => exact .ofAnyExcept _
  | identifier name => exact .lookup name
  | juxtaposition number constant names group parenthesized =>
      exact ⟨fun _ _ => .ofAnyExcept _, fun name _ => .lookup name⟩
  | call function arguments =>
      exact ⟨.consult (·.resolve? function) fun _ _ _ => trivial, fun _ _ _ _ => .ofAnyExcept _⟩
  | _ => trivial

theorem continuing_enters (depth : Nat) : (continuing t stack limit lines).Enters depth := by
  apply (continuing t stack limit lines).enters_of_within
  · exact fun place _ _ continues => Run.Continues.within continues place
  · exact fun _ => Parallel.throw rfl
  · exact fun _ => Parallel.throw rfl

/-- A visit knows nothing of the lines that were printed before it. -/
theorem visit_continues (s : Settings) (depth : Nat) (node : Node) (lines : List String) :
    Run.Continues lines (fun _ => True) (visit s depth node) (visit s depth node) := by
  have visits := (continuing s.tolerance s.stackLimit s.maxDepth lines).together_visit node depth
    (fun inner _ => continuing_admits inner.form) fun reached _ _ => continuing_enters reached
  exact Parallel.mono visits (fun _ _ same => same) fun _ _ => trivial

variable (s : Settings) (depth : Nat)

theorem visitAll_append (first rest : List Node) (last : Option Value) :
    visitAll s depth last (first ++ rest) =
      visitAll s depth last first >>= fun result => visitAll s depth result rest := by
  induction first generalizing last with
  | nil => rfl
  | cons node first ih =>
      rw [List.cons_append, visitAll, visitAll, bind_assoc]
      exact congrArg _ (funext fun result => ih result)

/-- What came before the first of some statements does not count. -/
theorem visitAll_of_ne_nil {statements : List Node} (some : statements ≠ [])
    (last other : Option Value) :
    visitAll s depth last statements = visitAll s depth other statements := by
  cases statements with
  | nil => exact absurd rfl some
  | cons node rest => rw [visitAll, visitAll]

/-- Entering a node for two steps is entering it twice, as the second step is not reached from where
the first one cannot be. -/
theorem enter_bind (place : Location) (first : Run (Option Value))
    (next : Option Value → Run (Option Value)) :
    enter s depth place (first >>= next) =
      enter s depth place first >>= fun result => enter s depth place (next result) := by
  unfold enter
  split
  · rfl
  · split
    · rfl
    · exact Run.within_bind place first next

theorem visit_program_append (place : Location) (first : List Node) {rest : List Node}
    (more : rest ≠ []) :
    visit s depth (.mk place (.program (first ++ rest))) =
      visit s depth (.mk place (.program first)) >>= fun _ =>
        visit s depth (.mk place (.program rest)) := by
  simp only [visit, dispatch]
  rw [visitAll_append, enter_bind]
  refine congrArg _ (funext fun result => ?_)
  rw [visitAll_of_ne_nil s (depth + 1) more result none]

end Eval

/-- What comes after an outcome, if it is not a failure, goes on with its session. -/
def Outcome.andThen {ε α β : Type} (outcome : Outcome ε α) (next : α → Session → Outcome ε β) :
    Outcome ε β :=
  match outcome.result with
  | .ok a =>
    let later := next a outcome.session
    { later with printed := outcome.printed ++ later.printed }
  | .error e => ⟨.error e, outcome.session, outcome.printed⟩

theorem Outcome.mapError_andThen {ε ε' α β : Type} (outcome : Outcome ε α)
    (next : α → Session → Outcome ε β) (f : ε → ε') :
    (outcome.andThen next).mapError f =
      (outcome.mapError f).andThen fun a session => (next a session).mapError f := by
  obtain ⟨result, session, printed⟩ := outcome
  cases result <;> rfl

namespace Session

/-- A step after another one can be performed by the session that the first one leaves behind. -/
theorem perform_bind {α β : Type} (session : Session) (first : Run α) {next : α → Run β}
    (continues : ∀ a lines, Run.Continues lines (fun _ => True) (next a) (next a)) :
    session.perform (.ofRun (first >>= next)) =
      (session.perform (.ofRun first)).andThen fun a later => later.perform (.ofRun (next a)) := by
  rw [perform_ofRun, perform_ofRun]
  cases outcome : first ⟨session.scope, []⟩ with
  | error fault after =>
      rw [Run.bind_of_error outcome]
      rfl
  | ok a after =>
      rw [Run.bind_of_ok outcome]
      have whole : after = Machine.onto after.printed ⟨after.scope, []⟩ := by
        simp [Machine.onto]
      have ends := continues a after.printed ⟨after.scope, []⟩ after whole
      simp only [Outcome.andThen, perform_ofRun]
      generalize next a ⟨after.scope, []⟩ = short, next a after = long at ends ⊢
      cases ends with
      | ok _ onto =>
        subst onto
        rfl
      | error same onto =>
        subst same onto
        rfl

theorem visit_program_append (session : Session) (place : Location) (first : List Node)
    {rest : List Node} (more : rest ≠ []) :
    session.visit (.mk place (.program (first ++ rest))) =
      (session.visit (.mk place (.program first))).andThen fun _ later =>
        later.visit (.mk place (.program rest)) := by
  rw [visit_eq, Eval.visit_program_append _ _ place first more, perform_bind]
  · simp only [Outcome.andThen, visit_eq, settings_perform, depth_perform]
  · exact fun _ => Eval.visit_continues _ _ _

theorem reset_of_depth_eq_zero {session : Session} (zero : session.depth = 0) :
    session.reset = session := by
  unfold reset
  rw [← zero]

end Session

/-- Running the statements of a program in two pieces, one after the other in one session, is
running them all: the result is that of the second piece, the lines are those of both, and the
variables are as the second piece leaves them. If the first piece fails, so does the program, and
nothing of the second piece happens. -/
theorem run_program_append (session : Session) (place : Location) (first : List Node)
    {rest : List Node} (more : rest ≠ []) :
    session.run (.mk place (.program (first ++ rest))) =
      (session.run (.mk place (.program first))).andThen fun _ later =>
        later.run (.mk place (.program rest)) := by
  have visits := session.reset.visit_program_append place first more
  -- The first piece leaves the counter at zero, where the second one would put it.
  have idle := Session.reset_of_depth_eq_zero
    (session.reset.depth_visit (.mk place (.program first)))
  rw [Session.run, visits, Outcome.mapError_andThen]
  simp only [Session.run, Outcome.andThen, Outcome.mapError, idle]

/-- `var a = 2; print(a)` and then `print(a); a`, and with `b` in place of the second statement:
without a value `b` ends the first piece and the program. -/
theorem run_program_append_failing :
    let here := Node.mk Location.unknown
    let program (statements : List Node) := Node.mk ⟨some 1, some 1⟩ (.program statements)
    let define := here (.define "a" (here (.number "2")))
    let a := here (.identifier "a")
    let b := here (.identifier "b")
    let rest := [here (.print a), a]
    let session := Session.fresh .standard ⟨.empty⟩
    let after := Session.fresh .standard ⟨⟨[("a", .number 2)]⟩⟩
    let failure : Error := ⟨.unknownIdentifier "b" ["a", "pi", "e"], ⟨some 1, some 1⟩⟩
    rest ≠ [] ∧
      session.run (program ([define, here (.print a)] ++ rest)) =
        (session.run (program [define, here (.print a)])).andThen
          (fun _ later => later.run (program rest)) ∧
      session.run (program ([define, here (.print a)] ++ rest)) =
        ⟨.ok (some (.number 2)), after, ["2", "2"]⟩ ∧
      session.run (program ([define, b] ++ rest)) =
        (session.run (program [define, b])).andThen (fun _ later => later.run (program rest)) ∧
      session.run (program ([define, b] ++ rest)) = ⟨.error failure, after, []⟩ := by
  intro here program define a b rest session after failure
  have more : rest ≠ [] := nofun
  exact ⟨more, run_program_append session _ _ more, rfl, run_program_append session _ _ more, rfl⟩

end Reckoner
