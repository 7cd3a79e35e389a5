import Reckoner.Visitor

set_option autoImplicit false

/-!
The evaluation of parse trees.

Visiting a node gives a value or, for statements, perhaps none; evaluating a node insists on a
value. While a node is being visited a counter is one higher, and what is thrown out of the visit is
given the place of the node if it has none yet.
-/

namespace Reckoner

/-- What is thrown: an error, in the form of its report, or a breakdown. -/
inductive Thrown where
  | error (cause : Cause) (report : Diagnostic)
  | breakdown (b : Breakdown)

namespace Thrown

def ofFault : Fault → Thrown
  | .error e => .error e.cause e.diagnostic
  | .breakdown b => .breakdown b

def toFault : Thrown → Fault
  | .error cause report => .error ⟨cause, report.location⟩
  | .breakdown b => .breakdown b

def within (place : Location) : Thrown → Thrown
  | .error cause report => .error cause (report.attach place)
  | .breakdown b => .breakdown b

end Thrown

/-- A machine, and the number of visits that are in progress on it. -/
structure Evaluator extends Machine where
  depth : Nat

abbrev Evaluation := EStateM Thrown Evaluator

namespace Evaluation

variable {α : Type}

/-- A step that visits nothing and so leaves the counter alone. -/
def ofRun (step : Run α) : Evaluation α := fun e =>
  match step e.toMachine with
  | .ok a machine => .ok a { e with toMachine := machine }
  | .error fault machine => .error (.ofFault fault) { e with toMachine := machine }

/-- What is done in a visit of a node at a place. The counter is back where it was afterwards,
however the visit ends. -/
def enter (s : Settings) (place : Location) (step : Evaluation α) : Evaluation α := do
  modify fun e => { e with depth := e.depth + 1 }
  try
    if s.maxDepth < (← get).depth then
      ofRun (Run.fail (.tooDeep s.maxDepth))
    else
      step
  catch thrown =>
    throw (thrown.within place)
  finally
    modify fun e => { e with depth := e.depth - 1 }

/-- Insists on a value. The error has the place of the node that gave none. -/
def require (node : Node) (step : Evaluation (Option Value)) : Evaluation Value := do
  match ← step with
  | some value => return value
  | none => ofRun (throw (.error ⟨.noValue node.form.name, node.location⟩))

def visitor (visit : Node → Evaluation (Option Value)) : Visitor Evaluation where
  own := ofRun
  visit := visit
  evaluate node := require node (visit node)

/-- Visits a node with room on the stack for so many visits inside it. -/
def descend (s : Settings) (room : Nat) (node : Node) : Evaluation (Option Value) :=
  enter s node.location <|
    match room with
    | 0 => throw (.breakdown .stackExhausted)
    | room + 1 => (visitor (descend s room)).perform s.tolerance node.location node.form

/-- Visits a node. The visits in progress have taken up their part of the stack. -/
def visit (s : Settings) (node : Node) : Evaluation (Option Value) := fun e =>
  descend s (s.stackLimit - e.depth) node e

def evaluate (s : Settings) (node : Node) : Evaluation Value :=
  require node (visit s node)

end Evaluation

end Reckoner
