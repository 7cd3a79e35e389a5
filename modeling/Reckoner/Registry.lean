import Reckoner.Bindings
import Reckoner.Builtin
import Reckoner.Text.Quoted

set_option autoImplicit false

namespace Reckoner

inductive TableRefusal where
  /-- The first name that belongs to no function. -/
  | notImplemented (name : String)
  /-- The functions that are not named. -/
  | notListed (functions : List Builtin)
deriving DecidableEq

def TableRefusal.message : TableRefusal → String
  | .notImplemented name => "Builtin function '" ++ name ++ "' in BUILTIN_TABLE but not implemented"
  | .notListed functions =>
    "Builtin functions " ++ Text.quotedList (functions.map Builtin.name) ++
      " implemented but missing from BUILTIN_TABLE"

/-- The functions by name, in the order of a table. -/
structure Registry where
  functions : Bindings Builtin

namespace Registry

def standardTable : List String :=
  ["abs", "ceil", "cos", "exp", "floor", "len", "log", "max", "min", "round", "sin", "sqrt", "sum",
    "tan"]

/-- Looks up the names of a table, up to the first that belongs to no function. -/
def resolve (table : List String) : Except TableRefusal (List (String × Builtin)) :=
  table.mapM fun name =>
    match Builtin.ofName? name with
    | some f => .ok (name, f)
    | none => .error (.notImplemented name)

def ofTable (table : List String) : Except TableRefusal Registry := do
  let entries ← resolve table
  let unlisted := Builtin.all.filter fun f => !table.contains f.name
  if unlisted.isEmpty then
    return ⟨.ofList entries⟩
  else
    throw (.notListed unlisted)

def names (r : Registry) : List String := r.functions.names

def lookup (r : Registry) (name : String) : Option Builtin := r.functions.get? name

end Registry

end Reckoner
