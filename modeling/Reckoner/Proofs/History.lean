import Mathlib.Data.List.Induction
import Mathlib.Data.List.Nodup
import Reckoner.Proofs.Discipline

set_option autoImplicit false

namespace Reckoner

namespace Bindings

variable {α : Type}

theorem nodup_names_insert {b : Bindings α} (nodup : b.names.Nodup) (name : String) (a : α) :
    (b.insert name a).names.Nodup := by
  rw [names_insert]
  split
  · exact nodup
  · rename_i fresh
    simpa [List.nodup_append] using ⟨nodup, fun other found same => fresh (same ▸ found)⟩

/-- Binding a name adds it to the names so far, listed where each first came up. -/
theorem names_insert_eraseDups {b : Bindings α} {written : List String}
    (order : b.names = written.eraseDups) (name : String) (a : α) :
    (b.insert name a).names = (written ++ [name]).eraseDups := by
  rw [names_insert, order, List.eraseDups_append]
  simp only [List.mem_eraseDups]
  split
  · rename_i found
    simp [List.removeAll, found]
  · rename_i fresh
    simp [List.removeAll, fresh, List.eraseDups_cons]

theorem ofList_concat (entries : List (String × α)) (entry : String × α) :
    ofList (entries ++ [entry]) = (ofList entries).insert entry.1 entry.2 := by
  simp [ofList]

/-- Bindings made one after the other list each name once, where it first came up. -/
theorem names_ofList (entries : List (String × α)) :
    (ofList entries).names = (entries.map Prod.fst).eraseDups ∧ (ofList entries).names.Nodup := by
  induction entries using List.reverseRecOn with
  | nil => exact ⟨rfl, List.nodup_nil⟩
  | append_singleton entries entry ih =>
      obtain ⟨order, nodup⟩ := ih
      rw [ofList_concat, List.map_append]
      exact ⟨names_insert_eraseDups order entry.1 entry.2,
        nodup_names_insert nodup entry.1 entry.2⟩

end Bindings

/-- A call that writes to the variables. -/
inductive Write where
  | define (name : String) (value : Value)
  | assign (name : String) (value : Value)

namespace Write

def name : Write → String
  | .define name _ | .assign name _ => name

def value : Write → Value
  | .define _ value | .assign _ value => value

/-- Whether the call needs its name to be bound; if not, it needs the name to be free. -/
def needsBound : Write → Bool
  | .define _ _ => false
  | .assign _ _ => true

def refusal : Write → Fault
  | .define name _ => .ofCause (.duplicateDefinition name true)
  | .assign name _ => .ofCause (.undefinedVariable name true)

def operation : Write → Scope → Except Fault Scope
  | .define name value, scope => scope.define name value
  | .assign name value, scope => scope.assign name value

def step : Write → Run Unit
  | .define name value => Run.define name value
  | .assign name value => Run.assign name value

theorem operation_eq (write : Write) (scope : Scope) :
    write.operation scope =
      if scope.hasVariable write.name = write.needsBound then
        .ok (scope.bind write.name write.value)
      else
        .error write.refusal := by
  cases write with
  | define name value =>
      by_cases bound : scope.hasVariable name = true <;>
        simp [operation, Scope.define, Write.name, needsBound, refusal, Write.value, bound]
  | assign name value =>
      by_cases bound : scope.hasVariable name = true <;>
        simp [operation, Scope.assign, Write.name, needsBound, refusal, Write.value, bound]

/-- A call binds its name, or fails and leaves everything as it was. -/
theorem step_eq (write : Write) (machine : Machine) :
    write.step machine =
      if machine.scope.hasVariable write.name = write.needsBound then
        .ok () { machine with scope := machine.scope.bind write.name write.value }
      else
        .error write.refusal machine := by
  have update : write.step = Run.update write.operation := by cases write <;> rfl
  have outcome := write.operation_eq machine.scope
  rw [update]
  split
  · rename_i permitted
    rw [if_pos permitted] at outcome
    exact Run.update_of_ok outcome
  · rename_i refused
    rw [if_neg refused] at outcome
    exact Run.update_of_error outcome

end Write

/-- A call with how it ended. -/
structure Call where
  write : Write
  result : Except Fault Unit

namespace Call

/-- The name that a call bound, with its value. A failed call bound none. -/
def bound? (call : Call) : Option (String × Value) :=
  match call.result with
  | .ok () => some (call.write.name, call.write.value)
  | .error _ => none

/-- What the calls of a log bound, in order. -/
def written (log : List Call) : List (String × Value) :=
  log.filterMap bound?

def lastWritten? (log : List Call) (name : String) : Option Value :=
  ((written log).reverse.find? fun bound => bound.1 = name).map Prod.snd

def defined (log : List Call) (name : String) : Bool :=
  log.any fun call => !call.write.needsBound && call.bound?.any fun bound => bound.1 = name

variable (log : List Call) (write : Write)

@[simp] theorem written_ok :
    written (log ++ [⟨write, .ok ()⟩]) = written log ++ [(write.name, write.value)] := by
  simp [written, bound?]

@[simp] theorem written_error (fault : Fault) :
    written (log ++ [⟨write, .error fault⟩]) = written log := by
  simp [written, bound?]

theorem lastWritten?_ok (name : String) :
    lastWritten? (log ++ [⟨write, .ok ()⟩]) name =
      if name = write.name then some write.value else lastWritten? log name := by
  rw [lastWritten?, written_ok, List.reverse_append, List.reverse_singleton, List.singleton_append,
    List.find?_cons]
  by_cases same : name = write.name
  · simp [same]
  · have other : write.name ≠ name := fun equal => same equal.symm
    simp [same, other, lastWritten?]

theorem defined_ok (name : String) :
    defined (log ++ [⟨write, .ok ()⟩]) name = true ↔
      defined log name = true ∨ write.needsBound = false ∧ write.name = name := by
  rw [defined, List.any_append, Bool.or_eq_true, ← defined]
  simp [bound?]

theorem defined_error (fault : Fault) (name : String) :
    defined (log ++ [⟨write, .error fault⟩]) name = defined log name := by
  rw [defined, List.any_append, ← defined]
  simp [bound?]

end Call

/-- The calls made so far, in order, and the machine that they left. -/
structure History where
  log : List Call
  machine : Machine

namespace History

def start (initial : List (String × Value)) (printed : List String) : History :=
  ⟨[], ⟨⟨.ofList initial⟩, printed⟩⟩

def call (history : History) (write : Write) : History :=
  match write.step history.machine with
  | .ok () after => ⟨history.log ++ [⟨write, .ok ()⟩], after⟩
  | .error fault after => ⟨history.log ++ [⟨write, .error fault⟩], after⟩

def calls (history : History) (writes : List Write) : History :=
  writes.foldl call history

/-- What the initial variables and the log of the calls say about the variables. -/
structure Agrees (initial : List (String × Value)) (history : History) : Prop where
  bound : ∀ name, history.machine.scope.hasVariable name = true ↔
    name ∈ initial.map Prod.fst ∨ Call.defined history.log name = true
  value : ∀ name, history.machine.scope.bindings.get? name =
    (Call.lastWritten? history.log name).or ((Bindings.ofList initial).get? name)
  order : history.machine.scope.bindings.names =
    ((initial ++ Call.written history.log).map Prod.fst).eraseDups
  nodup : history.machine.scope.bindings.names.Nodup

variable {initial : List (String × Value)} {history : History}

theorem agrees_start (initial : List (String × Value)) (printed : List String) :
    (start initial printed).Agrees initial where
  bound name := by
    have names := (Bindings.names_ofList initial).1
    change (Bindings.ofList initial).contains name = true ↔ _
    rw [Bindings.contains_iff_mem_names, names, List.mem_eraseDups]
    simp [Call.defined, start]
  value name := rfl
  order := by
    rw [show Call.written (start initial printed).log = [] from rfl, List.append_nil]
    exact (Bindings.names_ofList initial).1
  nodup := (Bindings.names_ofList initial).2

theorem hasVariable_bind (scope : Scope) (name other : String) (value : Value) :
    (scope.bind name value).hasVariable other = true ↔
      other = name ∨ scope.hasVariable other = true := by
  simp only [Scope.hasVariable, Scope.bind, Bindings.contains, Bindings.get?_insert]
  split
  · simp [*]
  · simp [*]

/-- A call that succeeds keeps the variables in agreement with the log. -/
theorem Agrees.succeed (agrees : history.Agrees initial) {write : Write}
    (permitted : history.machine.scope.hasVariable write.name = write.needsBound) :
    Agrees initial ⟨history.log ++ [⟨write, .ok ()⟩],
      { history.machine with scope := history.machine.scope.bind write.name write.value }⟩ := by
  constructor
  · intro name
    have before := agrees.bound name
    dsimp only
    rw [hasVariable_bind, Call.defined_ok]
    cases kind : write.needsBound with
    | false => grind
    | true =>
        -- The assigned name was bound before.
        have assigned : name = write.name → history.machine.scope.hasVariable name = true := by
          rintro rfl
          rw [permitted, kind]
        grind
  · intro name
    have before := agrees.value name
    dsimp only [Scope.bind]
    rw [Bindings.get?_insert, Call.lastWritten?_ok]
    split
    · rfl
    · exact before
  · have names := Bindings.names_insert_eraseDups agrees.order write.name write.value
    dsimp only [Scope.bind]
    rw [names, Call.written_ok]
    simp only [List.map_append, List.map_cons, List.map_nil, List.append_assoc]
  · exact Bindings.nodup_names_insert agrees.nodup write.name write.value

/-- So does a call that fails, which leaves the machine as it is. -/
theorem Agrees.fail (agrees : history.Agrees initial) (write : Write) (fault : Fault) :
    Agrees initial ⟨history.log ++ [⟨write, .error fault⟩], history.machine⟩ := by
  constructor
  · intro name
    rw [Call.defined_error]
    exact agrees.bound name
  · intro name
    rw [Call.lastWritten?, Call.written_error]
    exact agrees.value name
  · rw [Call.written_error]
    exact agrees.order
  · exact agrees.nodup

/-- One more call keeps the variables in agreement with the log. -/
theorem Agrees.call (agrees : history.Agrees initial) (write : Write) :
    (history.call write).Agrees initial := by
  have outcome := write.step_eq history.machine
  unfold History.call
  by_cases permitted : history.machine.scope.hasVariable write.name = write.needsBound
  · rw [if_pos permitted] at outcome
    rw [outcome]
    exact agrees.succeed permitted
  · rw [if_neg permitted] at outcome
    rw [outcome]
    exact agrees.fail write write.refusal

/-- The variables agree with the log after every history of calls. -/
theorem Agrees.calls (agrees : history.Agrees initial) (writes : List Write) :
    (history.calls writes).Agrees initial := by
  induction writes generalizing history with
  | nil => exact agrees
  | cons write rest ih => exact ih (agrees.call write)

end History

theorem Scope.constants_get? (name : String) :
    constants.get? name =
      if name = "e" then some (.number 2.718281828459045)
      else if name = "pi" then some (.number 3.141592653589793)
      else none := by
  simp only [constants, Bindings.ofList, List.foldl_cons, List.foldl_nil, Bindings.get?_insert,
    Bindings.get?_empty]

/-- Over every history of calls the variables are a store in which a name is defined once, by the
initial variables or by a definition, and only then assigned. -/
theorem scope_defines_once (initial : List (String × Value)) (printed : List String)
    (writes : List Write) (name : String) (value : Value) :
    let history := (History.start initial printed).calls writes
    let bound := name ∈ initial.map Prod.fst ∨ Call.defined history.log name = true
    let written := { history.machine with scope := history.machine.scope.bind name value }
    Run.define name value history.machine =
      (if bound then .error (.ofCause (.duplicateDefinition name true)) history.machine
        else .ok () written) ∧
    Run.assign name value history.machine =
      (if bound then .ok () written
        else .error (.ofCause (.undefinedVariable name true)) history.machine) ∧
    history.machine.scope.lookup name =
      (match (Call.lastWritten? history.log name).or
          (((Bindings.ofList initial).get? name).or (Scope.constants.get? name)) with
        | some meaning => .ok meaning
        | none => .error (.ofCause (.unknownIdentifier name history.machine.scope.available))) ∧
    history.machine.scope.bindings.names =
      ((initial ++ Call.written history.log).map Prod.fst).eraseDups ∧
    history.machine.scope.bindings.names.Nodup ∧
    Scope.lookupConstant name =
      (if name.toLower = "e" then .ok (.number 2.718281828459045)
        else if name.toLower = "pi" then .ok (.number 3.141592653589793)
        else .error (.ofCause (.unknownConstant name ["pi", "e"]))) := by
  intro history bound written
  have agrees : history.Agrees initial := (History.agrees_start initial printed).calls writes
  have define := (Write.define name value).step_eq history.machine
  have assign := (Write.assign name value).step_eq history.machine
  have taken : bound → history.machine.scope.hasVariable name = true := (agrees.bound name).mpr
  have free : ¬ bound → history.machine.scope.hasVariable name = false := by
    intro absent
    rw [← Bool.not_eq_true, agrees.bound name]
    exact absent
  refine ⟨?_, ?_, ?_, agrees.order, agrees.nodup, ?_⟩
  · by_cases held : bound
    · rw [if_pos held]
      exact define.trans (if_neg (by simp [Write.name, Write.needsBound, taken held]))
    · rw [if_neg held]
      exact define.trans (if_pos (free held))
  · by_cases held : bound
    · rw [if_pos held]
      exact assign.trans (if_pos (taken held))
    · rw [if_neg held]
      exact assign.trans (if_neg (by simp [Write.name, Write.needsBound, free held]))
  · have resolved : history.machine.scope.resolve? name =
        (Call.lastWritten? history.log name).or
          (((Bindings.ofList initial).get? name).or (Scope.constants.get? name)) := by
      rw [Scope.resolve?, agrees.value name, Option.or_assoc]
    rw [← resolved]
    rfl
  · rw [Scope.lookupConstant, Scope.constants_get?]
    split_ifs <;> rfl

end Reckoner
