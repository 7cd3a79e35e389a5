import Reckoner.Datum
import Reckoner.Session

set_option autoImplicit false

namespace Reckoner

/-- The options, and the variables that every program starts with. -/
structure Calculator where
  options : Options
  initial : Bindings Datum

namespace Calculator

variable (calculator : Calculator)

/-- Starts a session. Data that the language has no value for is an error here. -/
def start (stackLimit : Nat := Settings.standardStack) : Except Fault Session := do
  return .fresh ⟨calculator.options, stackLimit⟩ ⟨← Datum.toBindings calculator.initial⟩

def run (program : Node) (stackLimit : Nat := Settings.standardStack) :
    Except Fault (Outcome Error (Option Value)) := do
  return (← calculator.start stackLimit).run program

def evaluate (program : Node) (stackLimit : Nat := Settings.standardStack) :
    Except Fault (Outcome Error (Option Datum)) := do
  return (← calculator.run program stackLimit).map fun result => result.map Datum.ofResult

/-- Runs a program and gives the text of its result, which is empty if there is none. -/
def format (program : Node) (stackLimit : Nat := Settings.standardStack) :
    Except Fault (Outcome Error String) := do
  return (← calculator.run program stackLimit).map fun
    | some value => Display.text calculator.options.tolerance value
    | none => ""

end Calculator

end Reckoner
