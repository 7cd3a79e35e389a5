import Reckoner.Proofs.Discipline
import Reckoner.Proofs.Parallel

set_option autoImplicit false

namespace Reckoner

def Form.names : Form → List String
  | .identifier name | .call name _ | .define name _ | .assign name _ => [name]
  | .juxtaposition _ _ names _ _ => names
  | _ => []

def Node.names (tree : Node) : List String :=
  tree.nodes.flatMap fun node => node.form.names

namespace Scope

variable {names : List String} {left right : Scope} {name : String}

/-- Both scopes bind the names to the same values, or leave them unbound. -/
def AgreeOn (names : List String) (left right : Scope) : Prop :=
  ∀ name ∈ names, left.bindings.get? name = right.bindings.get? name

/-- The variables with other names, in their order. -/
def others (names : List String) (scope : Scope) : List (String × Value) :=
  scope.bindings.entries.filter fun entry => entry.1 ∉ names

theorem AgreeOn.hasVariable (agree : AgreeOn names left right) (member : name ∈ names) :
    left.hasVariable name = right.hasVariable name :=
  congrArg Option.isSome (agree name member)

theorem AgreeOn.resolve? (agree : AgreeOn names left right) (member : name ∈ names) :
    left.resolve? name = right.resolve? name := by
  rw [Scope.resolve?, Scope.resolve?, agree name member]

theorem AgreeOn.bind (agree : AgreeOn names left right) (name : String) (v : Value) :
    AgreeOn names (left.bind name v) (right.bind name v) := by
  intro other member
  rw [Scope.bind, Scope.bind, Bindings.get?_insert, Bindings.get?_insert, agree other member]

/-- Binding one of the names does nothing to the others. -/
theorem others_bind (member : name ∈ names) (scope : Scope) (v : Value) :
    (scope.bind name v).others names = scope.others names := by
  obtain ⟨⟨entries⟩⟩ := scope
  change (Bindings.insertEntry name v entries).filter _ = entries.filter _
  induction entries with
  | nil => simp [Bindings.insertEntry, member]
  | cons entry rest ih =>
      by_cases here : entry.1 = name
      · simp [Bindings.insertEntry, here, member]
      · simp only [Bindings.insertEntry, if_neg here, List.filter_cons, ih]

end Scope

/-- Two reports that differ at most in what they say about available names. -/
structure Diagnostic.Alike (d other : Diagnostic) : Prop where
  kind : d.kind = other.kind
  message : d.message = other.message
  received : d.received = other.received
  expected : d.expected = other.expected
  usage : d.usage = other.usage
  location : d.location = other.location
  eq_of_known : d.kind ≠ .unknownIdentifier → d = other

theorem Diagnostic.Alike.refl (d : Diagnostic) : d.Alike d :=
  ⟨rfl, rfl, rfl, rfl, rfl, rfl, fun _ => rfl⟩

theorem Diagnostic.Alike.withLocation {d other : Diagnostic} (alike : d.Alike other)
    (place : Location) : (d.withLocation place).Alike (other.withLocation place) where
  kind := alike.kind
  message := alike.message
  received := alike.received
  expected := alike.expected
  usage := alike.usage
  location := rfl
  eq_of_known known := congrArg (·.withLocation place) (alike.eq_of_known known)

/-- The same breakdown, or errors with reports that are alike. -/
inductive Fault.Alike : Fault → Fault → Prop
  | error {e other : Error} :
      e.diagnostic.Alike other.diagnostic → Alike (.error e) (.error other)
  | breakdown (b : Breakdown) : Alike (.breakdown b) (.breakdown b)

namespace Fault.Alike

theorem refl (fault : Fault) : fault.Alike fault := by
  cases fault with
  | error e => exact .error (.refl _)
  | breakdown b => exact .breakdown b

/-- Errors about a name that is unknown, whatever else is available. -/
theorem unknownIdentifier (name : String) (available other : List String) :
    Alike (.ofCause (.unknownIdentifier name available))
      (.ofCause (.unknownIdentifier name other)) :=
  .error ⟨rfl, rfl, rfl, rfl, rfl, rfl, fun known => absurd rfl known⟩

theorem within {fault other : Fault} (alike : fault.Alike other) (place : Location) :
    (fault.within place).Alike (other.within place) := by
  cases alike with
  | error alike =>
      rename_i e f
      have same : e.location = f.location := alike.location
      have moved := alike.withLocation (e.location.orOuter place)
      refine .error ?_
      change (e.cause.diagnostic.withLocation (e.location.orOuter place)).Alike
        (f.cause.diagnostic.withLocation (f.location.orOuter place))
      rw [← same]
      exact moved
  | breakdown b => exact .breakdown b

end Fault.Alike

/-- How two machines may have gone on from `left` and `right`, agreeing on the names. -/
structure Machine.InStep (names : List String) (left right next other : Machine) : Prop where
  agree : next.scope.AgreeOn names other.scope
  others_left : next.scope.others names = left.scope.others names
  others_right : other.scope.others names = right.scope.others names
  lines : ∃ lines, next.printed = left.printed ++ lines ∧ other.printed = right.printed ++ lines

namespace Machine.InStep

variable {names : List String} {left right next other : Machine}

theorem refl (agree : left.scope.AgreeOn names right.scope) :
    InStep names left right left right :=
  ⟨agree, rfl, rfl, [], by simp⟩

theorem bind (inStep : InStep names left right next other) {name : String} (member : name ∈ names)
    (v : Value) :
    InStep names left right { next with scope := next.scope.bind name v }
      { other with scope := other.scope.bind name v } where
  agree := inStep.agree.bind name v
  others_left := (Scope.others_bind member _ v).trans inStep.others_left
  others_right := (Scope.others_bind member _ v).trans inStep.others_right
  lines := inStep.lines

theorem emit (inStep : InStep names left right next other) (line : String) :
    InStep names left right { next with printed := next.printed ++ [line] }
      { other with printed := other.printed ++ [line] } where
  agree := inStep.agree
  others_left := inStep.others_left
  others_right := inStep.others_right
  lines := by
    obtain ⟨lines, first, second⟩ := inStep.lines
    exact ⟨lines ++ [line], by simp [first], by simp [second]⟩

end Machine.InStep

namespace Parallel

variable {α : Type} {machines : Machine → Machine → Prop} {good : α → Prop}

/-- A computation that has nothing to do with the machines. -/
theorem ofExcept {fair : Fault → Prop} {result : Except Fault α}
    (computes : Computes good fair result) :
    Parallel Fault.Alike machines good (Run.ofExcept result) (Run.ofExcept result) := by
  cases result with
  | ok a => exact pure computes
  | error fault => exact throw (.refl fault)

theorem within {step other : Run α} (parallel : Parallel Fault.Alike machines good step other)
    (place : Location) :
    Parallel Fault.Alike machines good (Run.within place step) (Run.within place other) := by
  intro left right related
  have ends := parallel left right related
  unfold Run.within
  generalize step left = outcome, other right = another at ends ⊢
  cases ends with
  | ok holds related => exact .ok holds related
  | error alike related => exact .error (alike.within place) related

end Parallel

namespace Run

variable {names : List String} {left right : Machine} {α : Type}

/-- The step goes alike from any two machines in step. -/
def Indifferent (names : List String) (left right : Machine) (step : Run α) : Prop :=
  Parallel Fault.Alike (Machine.InStep names left right) (fun _ => True) step step

theorem indifferent_ofExcept (result : Except Fault α) :
    Indifferent names left right (ofExcept result) := by
  have computes : Computes (fun _ => True) (fun _ => True) result := by cases result <;> trivial
  exact Parallel.ofExcept computes

/-- Reading off what scopes in agreement have in common. -/
theorem indifferent_read (read : Scope → α)
    (common : ∀ scope other : Scope, scope.AgreeOn names other → read scope = read other) :
    Indifferent names left right (do return read (← get).scope) := by
  intro next other inStep
  change Ends _ _ _ (.ok (read next.scope) next) (.ok (read other.scope) other)
  rw [common next.scope other.scope inStep.agree]
  exact .ok trivial inStep

theorem indifferent_hasVariable {name : String} (member : name ∈ names) :
    Indifferent names left right (hasVariable name) :=
  indifferent_read (·.hasVariable name) fun _ _ agree => agree.hasVariable member

theorem indifferent_resolve? {name : String} (member : name ∈ names) :
    Indifferent names left right (resolve? name) :=
  indifferent_read (·.resolve? name) fun _ _ agree => agree.resolve? member

theorem indifferent_lookup {name : String} (member : name ∈ names) :
    Indifferent names left right (lookup name) := by
  intro next other inStep
  change Ends _ _ _ (ofExcept (next.scope.lookup name) next)
    (ofExcept (other.scope.lookup name) other)
  rw [Scope.lookup, Scope.lookup, inStep.agree.resolve? member]
  cases other.scope.resolve? name with
  | some v => exact .ok trivial inStep
  | none => exact .error (.unknownIdentifier name _ _) inStep

/-- An operation that fails alike in both scopes or binds one of the names. -/
theorem indifferent_update {name : String} (member : name ∈ names) {v : Value}
    {operation : Scope → Except Fault Scope}
    (binds : ∀ scope other : Scope, scope.AgreeOn names other →
      (operation scope = .ok (scope.bind name v) ∧ operation other = .ok (other.bind name v)) ∨
        ∃ fault, operation scope = .error fault ∧ operation other = .error fault) :
    Indifferent names left right (update operation) := by
  intro next other inStep
  rcases binds next.scope other.scope inStep.agree with ⟨first, second⟩ | ⟨fault, first, second⟩
  · rw [update_of_ok first, update_of_ok second]
    exact .ok trivial (inStep.bind member v)
  · rw [update_of_error first, update_of_error second]
    exact .error (.refl fault) inStep

theorem indifferent_define {name : String} (member : name ∈ names) (v : Value) :
    Indifferent names left right (define name v) := by
  apply indifferent_update member
  intro scope other agree
  unfold Scope.define
  rw [agree.hasVariable member]
  cases other.hasVariable name with
  | true => exact Or.inr ⟨_, rfl, rfl⟩
  | false => exact Or.inl ⟨rfl, rfl⟩

theorem indifferent_assign {name : String} (member : name ∈ names) (v : Value) :
    Indifferent names left right (assign name v) := by
  apply indifferent_update member
  intro scope other agree
  unfold Scope.assign
  rw [agree.hasVariable member]
  cases other.hasVariable name with
  | true => exact Or.inl ⟨rfl, rfl⟩
  | false => exact Or.inr ⟨_, rfl, rfl⟩

theorem indifferent_emit (line : String) : Indifferent names left right (emit line) :=
  fun _ _ inStep => .ok trivial (inStep.emit line)

end Run

namespace Eval

variable {t : Tolerance} {stack : Nat} {limit : Int} {names : List String} {left right : Machine}

/-- Two evaluations with the same settings, from machines in step. -/
def abreast (t : Tolerance) (stack : Nat) (limit : Int) (names : List String)
    (left right : Machine) : Lockstep t stack limit limit where
  together := Parallel Fault.Alike (Machine.InStep names left right)
  sound _ := True
  respects := .always t
  pure := Parallel.pure
  bind := Parallel.bind
  ofExcept computes := Parallel.ofExcept computes
  error _ _ := Parallel.throw (.refl _)

theorem abreast_admits {form : Form} (mentioned : ∀ name ∈ form.names, name ∈ names) :
    (abreast t stack limit names left right).Admits form := by
  cases form with
  | define name expr =>
      have member := mentioned name (by simp [Form.names])
      exact ⟨Run.indifferent_hasVariable member, fun v _ => Run.indifferent_define member v⟩
  | assign name expr =>
      have member := mentioned name (by simp [Form.names])
      exact ⟨Run.indifferent_hasVariable member, fun v _ => Run.indifferent_assign member v⟩
  | print expr => exact fun v _ => Run.indifferent_emit _
  | number text => exact Run.indifferent_ofExcept _
  | imaginary text => exact Run.indifferent_ofExcept _
  | identifier name => exact Run.indifferent_lookup (mentioned name (by simp [Form.names]))
  | juxtaposition number constant identifiers group parenthesized =>
      refine ⟨fun text _ => Run.indifferent_ofExcept _, fun name member => ?_⟩
      exact Run.indifferent_lookup (mentioned name member)
  | call function arguments =>
      have member := mentioned function (by simp [Form.names])
      refine ⟨?_, fun f _ vs _ => Run.indifferent_ofExcept _⟩
      exact Parallel.mono (Run.indifferent_resolve? member) (fun _ _ alike => alike)
        fun _ _ _ _ => trivial
  | _ => trivial

theorem abreast_enters (depth : Nat) : (abreast t stack limit names left right).Enters depth := by
  apply (abreast t stack limit names left right).enters_of_within
  · exact fun place _ _ parallel => Parallel.within parallel place
  · exact fun _ => Parallel.throw (.refl _)
  · exact fun _ => Parallel.throw (.refl _)

end Eval

/-- A visit from two machines that agree on the names of the tree ends with the same result, or with
faults that differ at most in the names they list as available. The machines agree on the names
again, have printed the same lines, and have every other variable as it was. -/
theorem visit_agreeOn_names (s : Settings) (depth : Nat) (tree : Node) {left right : Machine}
    (agree : left.scope.AgreeOn tree.names right.scope) :
    Ends Fault.Alike (Machine.InStep tree.names left right) (fun _ => True)
      (Eval.visit s depth tree left) (Eval.visit s depth tree right) := by
  have admits : ∀ inner ∈ tree.nodes,
      (Eval.abreast s.tolerance s.stackLimit s.maxDepth tree.names left right).Admits inner.form :=
    fun inner inside => Eval.abreast_admits fun name mentioned =>
      List.mem_flatMap.mpr ⟨inner, inside, mentioned⟩
  have visits := (Eval.abreast _ _ _ _ left right).together_visit tree depth admits
    fun reached _ _ => Eval.abreast_enters reached
  exact (visits left right (.refl agree)).mono (fun _ _ alike => alike) fun _ _ => trivial

/-- From scopes that agree on `a`, `b` and `c` only, `var b = a` and then `c` fails for the same
reason, with different names available. -/
theorem visit_agreeOn_names_unknown :
    let here := Node.mk Location.unknown
    let tree := here (.program [here (.define "b" (here (.identifier "a"))),
      here (.identifier "c")])
    let left : Machine := ⟨⟨⟨[("a", .number 3), ("x", .boolean true)]⟩⟩, []⟩
    let right : Machine := ⟨⟨⟨[("y", .text "z"), ("a", .number 3)]⟩⟩, ["1"]⟩
    left.scope.AgreeOn tree.names right.scope ∧
      Eval.visit .standard 1 tree left =
        .error (.ofCause (.unknownIdentifier "c" ["a", "x", "b", "pi", "e"]))
          ⟨⟨⟨[("a", .number 3), ("x", .boolean true), ("b", .number 3)]⟩⟩, []⟩ ∧
      Ends Fault.Alike (Machine.InStep tree.names left right) (fun _ => True)
        (Eval.visit .standard 1 tree left) (Eval.visit .standard 1 tree right) := by
  intro here tree left right
  have names : tree.names = ["b", "a", "c"] := by
    simp [Node.names, tree, here, Node.nodes_mk, Form.children, Node.form, Form.names]
  have agree : left.scope.AgreeOn tree.names right.scope := by
    rw [names]
    intro name member
    simp only [List.mem_cons, List.not_mem_nil, or_false] at member
    rcases member with rfl | rfl | rfl <;> rfl
  exact ⟨agree, rfl, visit_agreeOn_names .standard 1 tree agree⟩

end Reckoner
