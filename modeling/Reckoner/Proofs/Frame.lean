import Reckoner.Proofs.Discipline

set_option autoImplicit false

namespace Reckoner

namespace Node

def Defines (tree : Node) (name : String) : Prop :=
  ∃ inner ∈ tree.nodes, ∃ expr, inner.form = .define name expr

def Assigns (tree : Node) (name : String) : Prop :=
  ∃ inner ∈ tree.nodes, ∃ expr, inner.form = .assign name expr

def Prints (tree : Node) : Prop :=
  ∃ inner ∈ tree.nodes, ∃ expr, inner.form = .print expr

end Node

/-- How a machine may differ from what it was before a tree was visited. -/
structure Frame (tree : Node) (before after : Machine) : Prop where
  /-- The variables keep their places, and new ones come last. -/
  names_prefix : before.scope.bindings.names <+: after.scope.bindings.names
  names_nodup : before.scope.bindings.names.Nodup → after.scope.bindings.names.Nodup
  defined : ∀ name ∈ after.scope.bindings.names, name ∉ before.scope.bindings.names →
    tree.Defines name
  assigned : ∀ name ∈ before.scope.bindings.names,
    after.scope.bindings.get? name ≠ before.scope.bindings.get? name → tree.Assigns name
  /-- What is no variable stands for the same constant, or for nothing, as before. -/
  constants : ∀ name, name ∉ after.scope.bindings.names →
    after.scope.resolve? name = before.scope.resolve? name
  printed_prefix : before.printed <+: after.printed
  silent : ¬ tree.Prints → after.printed = before.printed
  still : (∀ name, ¬ tree.Defines name ∧ ¬ tree.Assigns name) → after.scope = before.scope

theorem Scope.hasVariable_iff (scope : Scope) (name : String) :
    scope.hasVariable name = true ↔ name ∈ scope.bindings.names :=
  scope.bindings.contains_iff_mem_names name

theorem Scope.resolve?_bind_of_ne (scope : Scope) {name other : String} (distinct : other ≠ name)
    (v : Value) : (scope.bind name v).resolve? other = scope.resolve? other := by
  simp only [resolve?, bind, Bindings.get?_insert, if_neg distinct]

namespace Frame

variable {tree : Node} {before after : Machine}

theorem refl (tree : Node) (machine : Machine) : Frame tree machine machine where
  names_prefix := List.prefix_rfl
  names_nodup distinct := distinct
  defined _ bound unbound := absurd bound unbound
  assigned _ _ changed := absurd rfl changed
  constants _ _ := rfl
  printed_prefix := List.prefix_rfl
  silent _ := rfl
  still _ := rfl

/-- Defining a new variable that the tree defines stays within the frame. -/
theorem define (frame : Frame tree before after) {name : String} (v : Value)
    (unbound : after.scope.hasVariable name = false) (defines : tree.Defines name) :
    Frame tree before { after with scope := after.scope.bind name v } := by
  have fresh : name ∉ after.scope.bindings.names := by
    rw [← Scope.hasVariable_iff, unbound]
    exact Bool.false_ne_true
  have names : (after.scope.bind name v).bindings.names = after.scope.bindings.names ++ [name] := by
    rw [Scope.bind, Bindings.names_insert, if_neg fresh]
  constructor
  · rw [names]
    exact frame.names_prefix.trans (List.prefix_append _ _)
  · intro distinct
    rw [names, List.nodup_append]
    refine ⟨frame.names_nodup distinct, by simp, ?_⟩
    rintro old bound _ last rfl
    rw [List.mem_singleton] at last
    exact fresh (last ▸ bound)
  · intro other bound
    rw [names, List.mem_append, List.mem_singleton] at bound
    rcases bound with old | rfl
    · exact frame.defined other old
    · exact fun _ => defines
  · intro other old changed
    apply frame.assigned other old
    have distinct : other ≠ name := fun same => fresh (same ▸ frame.names_prefix.subset old)
    rwa [Scope.bind, Bindings.get?_insert, if_neg distinct] at changed
  · intro other absent
    rw [names, List.mem_append, List.mem_singleton, not_or] at absent
    rw [Scope.resolve?_bind_of_ne _ absent.2, frame.constants other absent.1]
  · exact frame.printed_prefix
  · exact frame.silent
  · intro inert
    exact absurd defines (inert name).1

/-- Assigning a variable that the tree assigns stays within the frame. -/
theorem assign (frame : Frame tree before after) {name : String} (v : Value)
    (bound : after.scope.hasVariable name = true) (assigns : tree.Assigns name) :
    Frame tree before { after with scope := after.scope.bind name v } := by
  have present : name ∈ after.scope.bindings.names := (Scope.hasVariable_iff _ _).mp bound
  have names : (after.scope.bind name v).bindings.names = after.scope.bindings.names := by
    rw [Scope.bind, Bindings.names_insert, if_pos present]
  constructor
  · rw [names]
    exact frame.names_prefix
  · rw [names]
    exact frame.names_nodup
  · rw [names]
    exact frame.defined
  · intro other old changed
    by_cases same : other = name
    · exact same ▸ assigns
    · apply frame.assigned other old
      rwa [Scope.bind, Bindings.get?_insert, if_neg same] at changed
  · intro other absent
    rw [names] at absent
    have distinct : other ≠ name := fun same => absent (same ▸ present)
    rw [Scope.resolve?_bind_of_ne _ distinct, frame.constants other absent]
  · exact frame.printed_prefix
  · exact frame.silent
  · intro inert
    exact absurd assigns (inert name).2

theorem emit (frame : Frame tree before after) (line : String) (prints : tree.Prints) :
    Frame tree before { after with printed := after.printed ++ [line] } where
  names_prefix := frame.names_prefix
  names_nodup := frame.names_nodup
  defined := frame.defined
  assigned := frame.assigned
  constants := frame.constants
  printed_prefix := frame.printed_prefix.trans (List.prefix_append _ _)
  silent quiet := absurd prints quiet
  still := frame.still

/-- What was a variable is still one. -/
theorem hasVariable (frame : Frame tree before after) {name : String}
    (bound : before.scope.hasVariable name = true) : after.scope.hasVariable name = true := by
  rw [Scope.hasVariable_iff] at bound ⊢
  exact frame.names_prefix.subset bound

/-- A variable that was none before is defined somewhere in the tree. -/
theorem defines (frame : Frame tree before after) {name : String}
    (unbound : before.scope.hasVariable name = false)
    (bound : after.scope.hasVariable name = true) : tree.Defines name := by
  apply frame.defined name ((Scope.hasVariable_iff _ _).mp bound)
  rw [← Scope.hasVariable_iff, unbound]
  exact Bool.false_ne_true

/-- A name that the tree neither defines nor assigns stands for what it stood for. -/
theorem resolve?_eq (frame : Frame tree before after) {name : String}
    (undefined : ¬ tree.Defines name) (unassigned : ¬ tree.Assigns name) :
    after.scope.resolve? name = before.scope.resolve? name := by
  by_cases old : name ∈ before.scope.bindings.names
  · have same : after.scope.bindings.get? name = before.scope.bindings.get? name :=
      by_contra fun changed => unassigned (frame.assigned name old changed)
    rw [Scope.resolve?, Scope.resolve?, same]
  · apply frame.constants
    exact fun bound => undefined (frame.defined name bound old)

end Frame

def framing (t : Tolerance) (tree : Node) (before : Machine) : Discipline t :=
  .indifferent t (Frame tree before) (fun _ => True) fun _ _ => trivial

theorem framing_admits (t : Tolerance) {tree : Node} (before : Machine) {inner : Node}
    (inside : inner ∈ tree.nodes) : (framing t tree before).Admits inner.form where
  define _ expr same v _ := (framing t tree before).keeps_define fun _ frame unbound =>
    Frame.define frame v unbound ⟨inner, inside, expr, same⟩
  assign _ expr same v _ := (framing t tree before).keeps_assign fun _ frame bound =>
    Frame.assign frame v bound ⟨inner, inside, expr, same⟩
  print expr same line _ frame := ⟨trivial, Frame.emit frame line ⟨inner, inside, expr, same⟩⟩
  numeral _ _ _ _ := trivial
  call _ _ _ _ _ _ _ _ := trivial

/-- A visit stays within the frame of its tree, however it ends. In particular, a tree without
definitions, assignments and prints leaves the machine as it was, even if it fails midway. -/
theorem visit_frame (s : Settings) (depth : Nat) (tree : Node) (machine : Machine) :
    Frame tree machine ((Eval.visit s depth tree).after machine) ∧
      ((∀ name, ¬ tree.Defines name ∧ ¬ tree.Assigns name) → ¬ tree.Prints →
        (Eval.visit s depth tree).after machine = machine) := by
  have keeps := (framing s.tolerance tree machine).keeps_visit s.stackLimit s.maxDepth depth tree
    (fun inner inside => framing_admits s.tolerance machine inside)
    (fun _ _ _ => ⟨fun _ => trivial, fun _ => trivial⟩)
  have frame : Frame tree machine ((Eval.visit s depth tree).after machine) :=
    keeps.after (Frame.refl tree machine)
  refine ⟨frame, fun inert quiet => ?_⟩
  exact congr (congrArg Machine.mk (frame.still inert)) (frame.silent quiet)

/-- So does the evaluation of a tree that has to have a value. -/
theorem evaluate_frame (s : Settings) (depth : Nat) (tree : Node) (machine : Machine) :
    Frame tree machine ((Eval.evaluate s depth tree).after machine) := by
  have keeps := (framing s.tolerance tree machine).keeps_evaluate s.stackLimit s.maxDepth depth tree
    (fun inner inside => framing_admits s.tolerance machine inside)
    (fun _ _ _ => ⟨fun _ => trivial, fun _ => trivial⟩)
  exact keeps.after (Frame.refl tree machine)

/-- A tree without definitions, assignments and prints. -/
def Node.Inert (tree : Node) : Prop :=
  (∀ name, ¬ tree.Defines name ∧ ¬ tree.Assigns name) ∧ ¬ tree.Prints

/-- The evaluation of an inert tree leaves the machine as it was. -/
theorem evaluate_inert {tree : Node} (inert : tree.Inert) (s : Settings) (depth : Nat)
    (machine : Machine) : (Eval.evaluate s depth tree).after machine = machine := by
  have frame := evaluate_frame s depth tree machine
  exact congr (congrArg Machine.mk (frame.still inert.1)) (frame.silent inert.2)

end Reckoner
