import Reckoner.Evaluation

set_option autoImplicit false

namespace Reckoner

/-- Settings, and the variables and the counter as the steps so far have left them, also those that
failed. -/
structure Session where
  settings : Settings
  scope : Scope
  /-- The number of visits in progress. -/
  depth : Nat

/-- What a step of a session comes to: its result, the session after it, and the lines it printed.
-/
structure Outcome (ε α : Type) where
  result : Except ε α
  session : Session
  printed : List String

namespace Outcome

variable {ε ε' α β : Type}

def map (f : α → β) (outcome : Outcome ε α) : Outcome ε β :=
  ⟨outcome.result.map f, outcome.session, outcome.printed⟩

def mapError (f : ε → ε') (outcome : Outcome ε α) : Outcome ε' α :=
  ⟨outcome.result.mapError f, outcome.session, outcome.printed⟩

end Outcome

namespace Session

variable {α : Type}

def fresh (settings : Settings) (scope : Scope) : Session :=
  ⟨settings, scope, 0⟩

def perform (session : Session) (step : Evaluation α) : Outcome Fault α :=
  match step ⟨⟨session.scope, []⟩, session.depth⟩ with
  | .ok a e => ⟨.ok a, { session with scope := e.scope, depth := e.depth }, e.printed⟩
  | .error thrown e =>
    ⟨.error thrown.toFault, { session with scope := e.scope, depth := e.depth }, e.printed⟩

def visit (session : Session) (node : Node) : Outcome Fault (Option Value) :=
  session.perform (Evaluation.visit session.settings node)

def evaluate (session : Session) (node : Node) : Outcome Fault Value :=
  session.perform (Evaluation.evaluate session.settings node)

def reset (session : Session) : Session :=
  { session with depth := 0 }

/-- Runs a program, whose result is that of its last statement. Every failure is an error of the
language: a breakdown is reported as one. -/
def run (session : Session) (program : Node) : Outcome Error (Option Value) :=
  (session.reset.visit program).mapError Fault.toError

def display (session : Session) (shown : Display.Shown) : String :=
  Display.shownText session.settings.tolerance shown

end Session

end Reckoner
