import Reckoner.Proofs.Commit

set_option autoImplicit false

namespace Reckoner

namespace Eval

variable {s : Settings} {depth : Nat} {machine middle after : Machine} {nodes : List Node}
  {values : List Value}

/-- The nodes are evaluated one after the other, each once, and have these values. -/
inductive EvaluatesTo (s : Settings) (depth : Nat) :
    Machine → List Node → List Value → Machine → Prop
  | nil (machine : Machine) : EvaluatesTo s depth machine [] [] machine
  | cons {machine middle after : Machine} {node : Node} {rest : List Node} {v : Value}
      {vs : List Value} :
      evaluate s depth node machine = .ok v middle → EvaluatesTo s depth middle rest vs after →
        EvaluatesTo s depth machine (node :: rest) (v :: vs) after

/-- One of the nodes is the first to fail, with this fault. -/
def FirstFails (s : Settings) (depth : Nat) (machine : Machine) (nodes : List Node) (fault : Fault)
    (after : Machine) : Prop :=
  ∃ done failing rest values middle, nodes = done ++ failing :: rest ∧
    EvaluatesTo s depth machine done values middle ∧
    evaluate s depth failing middle = .error fault after

theorem EvaluatesTo.length_eq (evaluates : EvaluatesTo s depth machine nodes values after) :
    values.length = nodes.length := by
  induction evaluates with
  | nil => rfl
  | cons _ _ ih => rw [List.length_cons, List.length_cons, ih]

theorem EvaluatesTo.evaluateAll_eq (evaluates : EvaluatesTo s depth machine nodes values after) :
    evaluateAll s depth nodes machine = .ok values after := by
  induction evaluates with
  | nil => rfl
  | cons first _ ih =>
      rw [evaluateAll, Run.bind_of_ok first, Run.bind_of_ok ih]
      rfl

/-- What comes after the first node that fails is not evaluated. -/
theorem FirstFails.evaluateAll_eq {fault : Fault}
    (fails : FirstFails s depth machine nodes fault after) :
    evaluateAll s depth nodes machine = .error fault after := by
  obtain ⟨done, failing, rest, values, middle, rfl, evaluates, failed⟩ := fails
  induction evaluates with
  | nil => exact Run.bind_of_error failed
  | cons first _ ih =>
      rw [List.cons_append, evaluateAll, Run.bind_of_ok first, Run.bind_of_error (ih failed)]

/-- Either all nodes have values, or one of them is the first to fail. -/
theorem evaluatesTo_or_firstFails (s : Settings) (depth : Nat) (nodes : List Node)
    (machine : Machine) :
    (∃ values after, EvaluatesTo s depth machine nodes values after) ∨
      ∃ fault after, FirstFails s depth machine nodes fault after := by
  induction nodes generalizing machine with
  | nil => exact Or.inl ⟨[], machine, .nil machine⟩
  | cons node rest ih =>
      cases outcome : evaluate s depth node machine with
      | error fault after =>
          exact Or.inr ⟨fault, after, [], node, rest, [], machine, rfl, .nil machine, outcome⟩
      | ok v middle =>
          rcases ih middle with ⟨vs, after, evaluates⟩ | ⟨fault, after, done, failing, later, vs,
            last, rfl, evaluates, failed⟩
          · exact Or.inl ⟨v :: vs, after, .cons outcome evaluates⟩
          · exact Or.inr ⟨fault, after, node :: done, failing, later, v :: vs, last, rfl,
              .cons outcome evaluates, failed⟩

variable {t : Tolerance} {function : String}

/-- A function of the language is applied, whatever the variables are. -/
theorem call_of_known {f : Builtin} (known : Builtin.ofName? function = some f)
    (values : List Value) : call t function values = Run.ofExcept (f.apply t values) := by
  rw [call, known]

/-- Any other name that stands for a value is multiplied with a single argument. -/
theorem call_of_resolved (unknown : Builtin.ofName? function = none) {value : Value}
    (found : machine.scope.resolve? function = some value) (argument : Value) :
    call t function [argument] machine =
      Run.ofExcept (Arith.multiply t value argument) machine := by
  have looked : Run.resolve? function machine = .ok (some value) machine :=
    congrArg (EStateM.Result.ok · machine) found
  simp only [call, unknown]
  rw [Run.bind_of_ok looked]

/-- A name that stands for nothing, or is not called with a single argument, is unknown. -/
theorem call_of_unresolved (unknown : Builtin.ofName? function = none)
    (unresolved : machine.scope.resolve? function = none ∨ values.length ≠ 1) :
    call t function values machine =
      .error (.ofCause (.unknownFunction function values.length)) machine := by
  have looked : Run.resolve? function machine = .ok (machine.scope.resolve? function) machine := rfl
  simp only [call, unknown]
  rw [Run.bind_of_ok looked]
  rcases values with _ | ⟨argument, _ | ⟨second, rest⟩⟩
  · rfl
  · rw [unresolved.resolve_right (absurd rfl)]
    rfl
  · rfl

/-- The value of a name may be taken before or after an argument that does not bind the name. -/
theorem dispatch_call_eq_juxtaposition (place : Location) {e : Node} {v : Value}
    (unknown : Builtin.ofName? function = none)
    (found : machine.scope.resolve? function = some v) (undefined : ¬ e.Defines function)
    (unassigned : ¬ e.Assigns function) :
    dispatch s depth place (.call function [e]) machine =
      dispatch s depth place (.juxtaposition none none [function] (some e) true) machine := by
  have looked : Run.lookup function machine = .ok v machine := by
    change Run.ofExcept (machine.scope.lookup function) machine = _
    rw [Scope.lookup, found]
    rfl
  change (evaluateAll s depth [e] >>= fun values => some <$> call s.tolerance function values)
    machine = (Run.lookup function >>= fun a => evaluate s depth e >>= fun b =>
      some <$> Run.ofExcept (Arith.multiply s.tolerance a b)) machine
  rw [Run.bind_of_ok looked]
  cases outcome : evaluate s depth e machine with
  | error fault after =>
      have failed : FirstFails s depth machine [e] fault after :=
        ⟨[], e, [], [], machine, rfl, .nil machine, outcome⟩
      rw [Run.bind_of_error failed.evaluateAll_eq, Run.bind_of_error outcome]
  | ok a after =>
      have argument : EvaluatesTo s depth machine [e] [a] after := .cons outcome (.nil after)
      have still : after.scope.resolve? function = some v :=
        ((frame_of_evaluate outcome).resolve?_eq undefined unassigned).trans found
      rw [Run.bind_of_ok argument.evaluateAll_eq, Run.bind_of_ok outcome]
      have multiplied := call_of_resolved (t := s.tolerance) unknown still a
      simp only [Functor.map, EStateM.map, multiplied]

/-- At an allowed depth a call does what follows with its arguments, at its place. -/
theorem visit_call (allowed : Allowed s depth) (place : Location) (function : String)
    (arguments : List Node) :
    visit s depth (.mk place (.call function arguments)) =
      Run.within place (do
        let values ← evaluateAll s (depth + 1) arguments
        some <$> call s.tolerance function values) := by
  rw [visit, enter_of_allowed allowed]
  rfl

theorem visit_call_of_firstFails (allowed : Allowed s depth) (place : Location) {fault : Fault}
    (fails : FirstFails s (depth + 1) machine nodes fault after) :
    visit s depth (.mk place (.call function nodes)) machine =
      .error (fault.within place) after := by
  rw [visit_call allowed, Run.within, Run.bind_of_error fails.evaluateAll_eq]

theorem visit_call_of_evaluatesTo (allowed : Allowed s depth) (place : Location)
    (function : String) (evaluates : EvaluatesTo s (depth + 1) machine nodes values after) :
    visit s depth (.mk place (.call function nodes)) machine =
      Run.within place (some <$> call s.tolerance function values) after := by
  rw [visit_call allowed, Run.within, Run.bind_of_ok evaluates.evaluateAll_eq]
  rfl

/-- How a call is resolved. At an allowed depth the arguments are evaluated from left to right, each
once; either one of them is the first to fail, and so does the call, or all have values. Then a
function of the language is applied to them, whatever the variables are, and any other name is
unknown if by now it stands for nothing or if there is not exactly one argument. At every depth, a
name that is no function but stands for a value goes with a single argument that does not bind the
name as in a juxtaposition at the same place. At a depth that is not allowed nothing happens. -/
theorem call_resolves (s : Settings) (depth : Nat) (place : Location) (function : String)
    (arguments : List Node) (machine : Machine) :
    let called := visit s depth (.mk place (.call function arguments)) machine
    (Allowed s depth →
      ((∃ fault after, FirstFails s (depth + 1) machine arguments fault after) ∨
        ∃ values after, EvaluatesTo s (depth + 1) machine arguments values after) ∧
      (∀ fault after, FirstFails s (depth + 1) machine arguments fault after →
        called = .error (fault.within place) after) ∧
      ∀ values after, EvaluatesTo s (depth + 1) machine arguments values after →
        (∀ f, Builtin.ofName? function = some f →
          (∀ v, f.apply s.tolerance values = .ok v → called = .ok (some v) after) ∧
          ∀ fault, f.apply s.tolerance values = .error fault →
            called = .error (fault.within place) after) ∧
        (Builtin.ofName? function = none →
          after.scope.resolve? function = none ∨ arguments.length ≠ 1 →
          called = .error
            ((Fault.ofCause (.unknownFunction function arguments.length)).within place) after)) ∧
    (∀ e, arguments = [e] → Builtin.ofName? function = none →
      (machine.scope.resolve? function).isSome → ¬ e.Defines function → ¬ e.Assigns function →
      called = visit s depth
        (.mk place (.juxtaposition none none [function] (some e) true)) machine) ∧
    (¬ Allowed s depth →
      ∃ fault : Fault, fault.toError.cause.kind = .tooDeep ∧ called = .error fault machine) := by
  intro called
  refine ⟨fun allowed => ⟨?_, ?_, ?_⟩, ?_, fun beyond => ?_⟩
  · exact (evaluatesTo_or_firstFails s (depth + 1) arguments machine).symm
  · intro fault after fails
    exact visit_call_of_firstFails allowed place fails
  · intro values after evaluates
    have resolved := visit_call_of_evaluatesTo allowed place function evaluates
    refine ⟨fun f known => ⟨fun v success => ?_, fun fault failed => ?_⟩, fun unknown none => ?_⟩
    · refine resolved.trans ?_
      rw [call_of_known known, success]
      rfl
    · refine resolved.trans ?_
      rw [call_of_known known, failed]
      rfl
    · rw [← evaluates.length_eq] at none ⊢
      have unresolved := call_of_unresolved (t := s.tolerance) unknown none
      refine resolved.trans ?_
      simp only [Run.within, Functor.map, EStateM.map, unresolved]
  · rintro e rfl unknown bound undefined unassigned
    obtain ⟨v, found⟩ := Option.isSome_iff_exists.mp bound
    exact enter_congr fun _ =>
      dispatch_call_eq_juxtaposition place unknown found undefined unassigned
  · obtain ⟨fault, deep, fails⟩ := enter_of_not_allowed beyond place
      (dispatch s (depth + 1) place (.call function arguments))
    exact ⟨fault, deep, fails machine⟩

/-- With the variables `a` and `len`: `a(var b = 2)` is the product `a (var b = 2)`; `c(var b = 2)`
is unknown, and `b` stays defined; `len(var b = 2, ?)` fails at its second argument, and `len("x")`
is the function. -/
theorem call_resolves_defining :
    let here := Node.mk ⟨some 1, none⟩
    let argument := here (.define "b" (here (.number "2")))
    let machine : Machine := ⟨⟨⟨[("a", .number 3), ("len", .number 5)]⟩⟩, []⟩
    let after : Machine := ⟨⟨⟨[("a", .number 3), ("len", .number 5), ("b", .number 2)]⟩⟩, []⟩
    Allowed .standard 1 ∧
      EvaluatesTo .standard 2 machine [argument] [.number 2] after ∧
      visit .standard 1 (here (.call "a" [argument])) machine =
        visit .standard 1 (here (.juxtaposition none none ["a"] (some argument) true)) machine ∧
      visit .standard 1 (here (.call "c" [argument])) machine =
        .error (.error ⟨.unknownFunction "c" 1, ⟨some 1, none⟩⟩) after ∧
      visit .standard 1 (here (.call "len" [argument, here (.misplaced "?")])) machine =
        .error (.error ⟨.unexpectedToken "?", ⟨some 1, none⟩⟩) after ∧
      visit .standard 1 (here (.call "len" [here (.terminal "x")])) machine =
        .ok (some (.number 1)) machine := by
  intro here argument machine after
  have allowed : Allowed .standard 1 := by decide
  have outcome : evaluate .standard 2 argument machine = .ok (.number 2) after := rfl
  have evaluates : EvaluatesTo .standard 2 machine [argument] [.number 2] after :=
    .cons outcome (.nil after)
  have inside : argument.nodes = [argument, here (.number "2")] := by
    simp [argument, here, Node.nodes_mk, Form.children]
  have undefined : ¬ argument.Defines "a" := by
    rintro ⟨inner, member, expr, form⟩
    rw [inside] at member
    rcases List.mem_pair.mp member with rfl | rfl
    · exact absurd (Form.define.inj form).1 (by decide)
    · cases form
  have unassigned : ¬ argument.Assigns "a" := by
    rintro ⟨inner, member, expr, form⟩
    rw [inside] at member
    rcases List.mem_pair.mp member with rfl | rfl <;> cases form
  have fails : FirstFails .standard 2 machine [argument, here (.misplaced "?")]
      (.error ⟨.unexpectedToken "?", ⟨some 1, none⟩⟩) after :=
    ⟨[argument], here (.misplaced "?"), [], [.number 2], after, rfl, evaluates, rfl⟩
  have text : EvaluatesTo .standard 2 machine [here (.terminal "x")] [.text "x"] machine :=
    .cons rfl (.nil machine)
  have multiplied := (call_resolves .standard 1 ⟨some 1, none⟩ "a" [argument] machine).2.1
    argument rfl (by decide) rfl undefined unassigned
  have unknown := (call_resolves .standard 1 ⟨some 1, none⟩ "c" [argument] machine).1 allowed
  have failing := (call_resolves .standard 1 ⟨some 1, none⟩ "len"
    [argument, here (.misplaced "?")] machine).1 allowed
  have applied := (call_resolves .standard 1 ⟨some 1, none⟩ "len" [here (.terminal "x")]
    machine).1 allowed
  refine ⟨allowed, evaluates, multiplied, ?_, ?_, ?_⟩
  · exact (unknown.2.2 _ _ evaluates).2 (by decide) (Or.inl rfl)
  · exact failing.2.1 _ _ fails
  · exact ((applied.2.2 _ _ text).1 .len (by decide)).1 _ rfl

/-- With the limit zero no call is reached: `f()` is not reported as unknown, but as too deep. -/
theorem call_too_deep :
    let session := Session.fresh ⟨⟨.standard, 0⟩, 2000⟩ ⟨.empty⟩
    let program := Node.mk Location.unknown (.call "f" [])
    Builtin.ofName? "f" = none ∧ session.scope.resolve? "f" = none ∧
      (session.run program).result = .error ⟨.tooDeep 0, Location.unknown⟩ ∧
      ∀ e, (session.run program).result = .error e → e.cause.kind ≠ .unknownFunction := by
  intro session program
  refine ⟨by decide, by decide, rfl, fun e failed => ?_⟩
  cases failed
  exact nofun

end Eval

end Reckoner
