import Reckoner.Arith.Tolerance
import Reckoner.Scope

set_option autoImplicit false

namespace Reckoner

/-- What can be chosen about an evaluation. -/
structure Options where
  tolerance : Tolerance
  /-- The greatest depth to which nodes may be nested, counting from one. -/
  maxDepth : Int

/-- How a program is evaluated: as chosen, and on a given stack. -/
structure Settings extends Options where
  /-- So many visits can be in progress at once before the stack is exhausted. Only visits are
  counted: comparing, converting or printing a nested value recurses over the value, and is taken
  to fit on the stack however deep the value is. -/
  stackLimit : Nat

def Settings.standardDepth : Int := 500

/-- The stack of a calculator that is given none, which is more than the standard depth takes up. -/
def Settings.standardStack : Nat := 2000

def Options.standard : Options := ⟨.standard, Settings.standardDepth⟩

def Settings.standard : Settings := ⟨.standard, standardStack⟩

/-- What an evaluation works on: its variables, and the lines printed so far. -/
structure Machine where
  scope : Scope
  printed : List String

/-- A step of an evaluation, which leaves a machine behind also when it fails. -/
abbrev Run := EStateM Fault Machine

namespace Run

variable {α : Type}

/-- A step that computes and touches nothing. -/
def ofExcept (result : Except Fault α) : Run α := fun machine =>
  match result with
  | .ok a => .ok a machine
  | .error fault => .error fault machine

def fail (cause : Cause) : Run α :=
  throw (.ofCause cause)

def lookup (name : String) : Run Value := do
  ofExcept ((← get).scope.lookup name)

def resolve? (name : String) : Run (Option Value) :=
  return (← get).scope.resolve? name

def hasVariable (name : String) : Run Bool :=
  return (← get).scope.hasVariable name

/-- Replaces the variables by those that an operation on them gives. -/
def update (operation : Scope → Except Fault Scope) : Run Unit := do
  let machine ← get
  let scope ← ofExcept (operation machine.scope)
  set { machine with scope := scope }

def define (name : String) (value : Value) : Run Unit :=
  update fun scope => scope.define name value

def assign (name : String) (value : Value) : Run Unit :=
  update fun scope => scope.assign name value

def emit (line : String) : Run Unit :=
  modify fun machine => { machine with printed := machine.printed ++ [line] }

def within (place : Location) (step : Run α) : Run α := fun machine =>
  match step machine with
  | .ok a after => .ok a after
  | .error fault after => .error (fault.within place) after

end Run

end Reckoner
