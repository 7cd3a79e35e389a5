import Reckoner.Proofs.Depth
import Reckoner.Proofs.Frame
import Reckoner.Proofs.Wrappers

set_option autoImplicit false

/-!
Chains of comparisons. A chain goes like the conjunction of the comparisons of its neighbours, if
the operands in the middle, which the conjunction evaluates twice, are inert. The conjunction is a
higher tree, and so it may be too deep where the chain is not.
-/

namespace Reckoner

/-- The tree is the conjunction, nested to the right, of the comparisons of neighbours in the chain
that starts with the given operand and goes on with the links. The nodes that are no operands may
stand anywhere. -/
inductive Conjunction : Node → List (String × Node) → Node → Prop
  | pair (place : Location) (first : Node) (link : String × Node) :
      Conjunction first [link] (.mk place (.comparison first [link]))
  | and (place inside : Location) (first : Node) {link next : String × Node}
      {rest : List (String × Node)} {tree : Node} :
      Conjunction link.2 (next :: rest) tree →
        Conjunction first (link :: next :: rest)
          (.mk place (.and (.mk inside (.comparison first [link])) tree))

/-- The step goes like the other one, up to the places of errors, unless it is too deep. -/
abbrev Run.Follows {α : Type} (step other : Run α) : Prop :=
  Resembles (·.kind = .tooDeep) (fun _ => True) step other

namespace Eval

variable {s : Settings} {depth lower : Nat}

/-- Compares the first operand of a chain and those of its links as long as the comparisons hold. -/
def chain (s : Settings) (depth : Nat) (first : Node) (links : List (String × Node)) :
    Run Bool := do
  let left ← evaluate s depth first
  compareAll s depth left links

/-- The Boolean that a comparison comes to. -/
def verdict (holds : Bool) : Option Value :=
  some (.boolean holds)

theorem dispatch_comparison (s : Settings) (depth : Nat) (place : Location) (first : Node)
    (link : String × Node) (rest : List (String × Node)) :
    dispatch s depth place (.comparison first (link :: rest)) =
      verdict <$> chain s depth first (link :: rest) := by
  simp only [dispatch, chain, map_eq_pure_bind, bind_assoc]
  rfl

theorem evaluate_of_verdict {node : Node} {step : Run Bool}
    (visits : Run.Follows (visit s depth node) (verdict <$> step)) :
    Run.Follows (evaluate s depth node) (Value.boolean <$> step) := by
  have evaluates := resembles_require (rfl : node.form.name = _) visits node.location node.location
  rw [← evaluate_eq_require] at evaluates
  have boolean : verdict <$> step = some <$> Value.boolean <$> step := by
    rw [← comp_map]
    rfl
  rwa [boolean, require_some] at evaluates

/-- Entering a node makes no difference but for depth and place. -/
theorem follows_entered {step other : Run (Option Value)}
    (follows : Run.Follows step other) (place : Location) :
    Run.Follows (enter s depth place step) other := by
  by_cases allowed : Allowed s depth
  · have moved := follows.within place Location.unknown
    rwa [Run.within_unknown, ← enter_of_allowed allowed] at moved
  · obtain ⟨fault, kind, fails⟩ := enter_of_not_allowed allowed place step
    exact fun machine => Or.inl ⟨fault, machine, fails machine, kind⟩

/-- A single comparison goes deeper down as it does further up. -/
theorem visit_pair (le : lower ≤ depth + 1) (place : Location) (first : Node)
    (link : String × Node) :
    Run.Follows (visit s depth (.mk place (.comparison first [link])))
      (verdict <$> chain s lower first [link]) := by
  obtain ⟨operator, node⟩ := link
  rw [visit, dispatch_comparison]
  apply follows_entered
  simp only [chain, compareAll, map_eq_pure_bind, bind_assoc]
  refine (evaluate_below s le first).bind fun left _ => ?_
  exact (evaluate_below s le node).bind fun right _ => .refl _

/-- An inert operand may be evaluated once more: a chain of several links goes like its first link
and then, if that holds, like the chain that starts with the operand in the middle. -/
theorem chain_cons {link : String × Node} (inert : link.2.Inert) (first : Node)
    (rest : List (String × Node)) :
    chain s depth first (link :: rest) = do
      if ← chain s depth first [link] then chain s depth link.2 rest else return false := by
  obtain ⟨operator, node⟩ := link
  funext machine
  simp only [chain, compareAll, bind_assoc]
  cases started : evaluate s depth first machine with
  | error fault after => rw [Run.bind_of_error started, Run.bind_of_error started]
  | ok left middle =>
      rw [Run.bind_of_ok started, Run.bind_of_ok started]
      cases reached : evaluate s depth node middle with
      | error fault after => rw [Run.bind_of_error reached, Run.bind_of_error reached]
      | ok right after =>
          have same : after = middle :=
            (Run.after_of_ok reached).symm.trans (evaluate_inert inert s depth middle)
          subst same
          rw [Run.bind_of_ok reached, Run.bind_of_ok reached]
          cases Arith.compareBy s.tolerance operator left right with
          | error fault => rfl
          | ok holds =>
              cases holds with
              | false => rfl
              | true =>
                  exact (Run.bind_of_ok (f := fun left => compareAll s depth left rest)
                    reached).symm

/-- The conjunction goes like the chain, unless the conjunction is too deep. -/
theorem visit_conjunction {first : Node} {links : List (String × Node)} {tree : Node}
    (conjunction : Conjunction first links tree)
    (inert : ∀ link ∈ links.dropLast, link.2.Inert) (le : lower ≤ depth + 1) :
    Run.Follows (visit s depth tree) (verdict <$> chain s lower first links) := by
  induction conjunction generalizing depth with
  | pair place first link => exact visit_pair le place first link
  | @and place inside first link next rest tree conjunction ih =>
      rw [List.dropLast_cons_cons] at inert
      have below : lower ≤ depth + 1 + 1 := by omega
      have now := evaluate_of_verdict (s := s) (visit_pair below inside first link)
      have later := evaluate_of_verdict
        (ih (fun link member => inert link (List.mem_cons_of_mem _ member)) below)
      have split : verdict <$> chain s lower first (link :: next :: rest) = (do
          let a ← Value.boolean <$> chain s lower first [link]
          if Arith.isTrue s.tolerance a then
            let b ← Value.boolean <$> chain s lower link.2 (next :: rest)
            return some (.boolean (Arith.isTrue s.tolerance b))
          else
            return some (.boolean false)) := by
        rw [chain_cons (inert link List.mem_cons_self)]
        simp only [map_eq_pure_bind, bind_assoc, pure_bind]
        refine congrArg _ (funext fun holds => ?_)
        cases holds <;> rfl
      rw [visit, dispatch, split]
      apply follows_entered
      refine now.bind fun a _ => ?_
      split
      · exact later.bind fun b _ => .refl _
      · exact .refl _

/-- The conjunction is not too deep where there is room for its height. -/
theorem visit_not_tooDeep {tree : Node} (room : Allowed s (depth + tree.height - 1))
    {machine after : Machine} {fault : Fault}
    (failed : visit s depth tree machine = .error fault after) :
    fault.toError.cause.kind ≠ .tooDeep := by
  unfold Allowed at room
  have kept := (shallow s.tolerance).keeps_visit s.stackLimit s.maxDepth depth tree
    (fun inner _ => shallow_admits _ inner.form)
    (fun reached _ below => shallow_allows _ (by omega) (by omega)) machine trivial
  rw [failed] at kept
  exact kept.1

/-- The links hold one after the other, each between the value before it and that of its operand,
and the operands lead from one machine to the other. -/
inductive LinksHold (s : Settings) (depth : Nat) :
    Machine → Value → List (String × Node) → Machine → Prop
  | nil (machine : Machine) (left : Value) : LinksHold s depth machine left [] machine
  | cons {machine middle after : Machine} {left right : Value} {operator : String} {node : Node}
      {rest : List (String × Node)} :
      evaluate s depth node machine = .ok right middle →
      Arith.compareBy s.tolerance operator left right = .ok true →
      LinksHold s depth middle right rest after →
        LinksHold s depth machine left ((operator, node) :: rest) after

theorem allowed_of_evaluate {node : Node} {machine after : Machine} {v : Value}
    (success : evaluate s depth node machine = .ok v after) : Allowed s depth := by
  by_contra beyond
  obtain ⟨place, form⟩ := node
  obtain ⟨fault, _, fails⟩ := enter_of_not_allowed beyond place (dispatch s (depth + 1) place form)
  rw [evaluate, require, Run.bind_of_error (fails machine)] at success
  cases success

theorem compareAll_cons {machine middle : Machine} {left right : Value} {operator : String}
    {node : Node} {rest : List (String × Node)}
    (reached : evaluate s depth node machine = .ok right middle) :
    compareAll s depth left ((operator, node) :: rest) machine =
      match Arith.compareBy s.tolerance operator left right with
      | .ok true => compareAll s depth right rest middle
      | .ok false => .ok false middle
      | .error fault => .error fault middle := by
  rw [compareAll, Run.bind_of_ok reached]
  cases Arith.compareBy s.tolerance operator left right with
  | error fault => rfl
  | ok holds => cases holds <;> rfl

theorem compareAll_of_failed {machine after : Machine} {left : Value} {operator : String}
    {node : Node} {rest : List (String × Node)} {fault : Fault}
    (failed : evaluate s depth node machine = .error fault after) :
    compareAll s depth left ((operator, node) :: rest) machine = .error fault after := by
  rw [compareAll, Run.bind_of_error failed]

/-- Going along the links gives true just if all of them hold. -/
theorem compareAll_eq_true_iff (links : List (String × Node)) (left : Value)
    (machine after : Machine) :
    compareAll s depth left links machine = .ok true after ↔
      LinksHold s depth machine left links after := by
  constructor
  · intro success
    induction links generalizing left machine with
    | nil =>
        cases success
        exact .nil _ left
    | cons link rest ih =>
        obtain ⟨operator, node⟩ := link
        cases reached : evaluate s depth node machine with
        | error fault middle =>
            rw [compareAll_of_failed reached] at success
            cases success
        | ok right middle =>
            rw [compareAll_cons reached] at success
            split at success
            · rename_i holds
              exact .cons reached holds (ih right middle success)
            · cases success
            · cases success
  · intro hold
    induction hold with
    | nil machine left => rfl
    | cons reached holds _ ih => rw [compareAll_cons reached, holds, ih]

/-- Nothing is done after a link that does not hold. -/
theorem compareAll_append {links : List (String × Node)} {left : Value} {machine : Machine}
    (stops : ∀ after, compareAll s depth left links machine ≠ .ok true after)
    (more : List (String × Node)) :
    compareAll s depth left (links ++ more) machine = compareAll s depth left links machine := by
  induction links generalizing left machine with
  | nil => exact absurd rfl (stops machine)
  | cons link rest ih =>
      obtain ⟨operator, node⟩ := link
      rw [List.cons_append]
      cases reached : evaluate s depth node machine with
      | error fault middle => rw [compareAll_of_failed reached, compareAll_of_failed reached]
      | ok right middle =>
          rw [compareAll_cons reached] at stops ⊢
          rw [compareAll_cons reached]
          split at stops
          · exact ih stops
          · rfl
          · rfl

theorem chain_eq_true_iff (first : Node) (links : List (String × Node)) (machine after : Machine) :
    chain s depth first links machine = .ok true after ↔
      ∃ left middle, evaluate s depth first machine = .ok left middle ∧
        LinksHold s depth middle left links after := by
  constructor
  · intro success
    cases started : evaluate s depth first machine with
    | error fault middle =>
        rw [chain, Run.bind_of_error started] at success
        cases success
    | ok left middle =>
        rw [chain, Run.bind_of_ok started] at success
        exact ⟨left, middle, rfl, (compareAll_eq_true_iff links left middle after).mp success⟩
  · rintro ⟨left, middle, started, hold⟩
    rw [chain, Run.bind_of_ok started]
    exact (compareAll_eq_true_iff links left middle after).mpr hold

theorem chain_append {first : Node} {links : List (String × Node)} {machine : Machine}
    (stops : ∀ after, chain s depth first links machine ≠ .ok true after)
    (more : List (String × Node)) :
    chain s depth first (links ++ more) machine = chain s depth first links machine := by
  cases started : evaluate s depth first machine with
  | error fault middle => rw [chain, chain, Run.bind_of_error started, Run.bind_of_error started]
  | ok left middle =>
      rw [chain, Run.bind_of_ok started] at stops ⊢
      rw [chain, Run.bind_of_ok started, compareAll_append stops]

theorem visit_comparison (place : Location) (first : Node) {links : List (String × Node)}
    (linked : links ≠ []) :
    visit s depth (.mk place (.comparison first links)) =
      enter s depth place (verdict <$> chain s (depth + 1) first links) := by
  obtain ⟨link, rest, rfl⟩ := List.exists_cons_of_ne_nil linked
  rw [visit, dispatch_comparison]

/-- A comparison has a value if it is at an allowed depth and its chain goes through. -/
theorem visit_comparison_eq_ok_iff (place : Location) (first : Node)
    {links : List (String × Node)} (linked : links ≠ []) {machine after : Machine}
    {result : Option Value} :
    visit s depth (.mk place (.comparison first links)) machine = .ok result after ↔
      Allowed s depth ∧ ∃ holds, result = verdict holds ∧
        chain s (depth + 1) first links machine = .ok holds after := by
  rw [visit_comparison place first linked, enter_eq_ok_iff]
  refine and_congr_right fun _ => ?_
  simp only [Functor.map, EStateM.map]
  cases chain s (depth + 1) first links machine with
  | ok holds next =>
      constructor
      · rintro ⟨⟩
        exact ⟨holds, rfl, rfl⟩
      · rintro ⟨_, rfl, ⟨⟩⟩
        rfl
  | error fault next => simp

theorem visit_comparison_eq_true_iff (place : Location) (first : Node)
    {links : List (String × Node)} (linked : links ≠ []) (machine after : Machine) :
    visit s depth (.mk place (.comparison first links)) machine = .ok (verdict true) after ↔
      ∃ left middle, evaluate s (depth + 1) first machine = .ok left middle ∧
        LinksHold s (depth + 1) middle left links after := by
  rw [← chain_eq_true_iff, visit_comparison_eq_ok_iff place first linked]
  constructor
  · rintro ⟨_, holds, same, success⟩
    cases same
    exact success
  · intro success
    obtain ⟨left, middle, started, _⟩ := (chain_eq_true_iff first links machine after).mp success
    exact ⟨(allowed_of_evaluate started).outer, true, rfl, success⟩

/-- A comparison that is not true stays as it is with more links. -/
theorem visit_comparison_append (place : Location) (first : Node) {links : List (String × Node)}
    (linked : links ≠ []) {machine : Machine}
    (stops : ∀ after, visit s depth (.mk place (.comparison first links)) machine ≠
      .ok (verdict true) after) (more : List (String × Node)) :
    visit s depth (.mk place (.comparison first (links ++ more))) machine =
      visit s depth (.mk place (.comparison first links)) machine := by
  rw [visit_comparison place first linked,
    visit_comparison place first (List.append_ne_nil_of_left_ne_nil linked more)]
  apply enter_congr
  intro allowed
  have ends : ∀ after, chain s (depth + 1) first links machine ≠ .ok true after :=
    fun after success => stops after
      ((visit_comparison_eq_ok_iff place first linked).mpr ⟨allowed, true, rfl, success⟩)
  simp only [Functor.map, EStateM.map, chain_append ends more]

theorem visit_resembles_conjunction {first : Node} {links : List (String × Node)} {tree : Node}
    (conjunction : Conjunction first links tree)
    (inert : ∀ link ∈ links.dropLast, link.2.Inert) (s : Settings) (depth : Nat) (place : Location)
    (machine : Machine) :
    (∃ fault after, visit s depth tree machine = .error fault after ∧
      fault.toError.cause.kind = .tooDeep) ∨
    Ends Fault.DiffersInPlace Eq (fun _ => True) (visit s depth tree machine)
      (visit s depth (.mk place (.comparison first links)) machine) := by
  have linked : links ≠ [] := by cases conjunction <;> exact List.cons_ne_nil _ _
  rw [visit_comparison place first linked]
  by_cases allowed : Allowed s depth
  · have moved := (visit_conjunction (s := s) conjunction inert (le_refl (depth + 1))).within
      Location.unknown place
    rw [Run.within_unknown, ← enter_of_allowed allowed] at moved
    exact (moved machine).imp_right fun ends =>
      ends.mono (fun _ _ alike => alike.differsInPlace) fun _ _ => trivial
  · obtain ⟨treePlace, form⟩ := tree
    obtain ⟨fault, kind, fails⟩ := enter_of_not_allowed allowed treePlace
      (dispatch s (depth + 1) treePlace form)
    exact Or.inl ⟨fault, machine, fails machine, kind⟩

/-- A chain of comparisons means the conjunction of its links. Where the operands in the middle are
inert, visiting the conjunction gives the outcome of visiting the chain, up to the place of an
error, with the same lines and variables, or it is too deep; and it is not too deep if there is room
for its height. The outcome of the chain is a Boolean or a fault. It is true just if the first
operand has a value and the links hold one after the other. If it is not true, no further links
change anything about it. -/
theorem chain_conjoins {first : Node} {links : List (String × Node)} {tree : Node}
    (conjunction : Conjunction first links tree)
    (inert : ∀ link ∈ links.dropLast, link.2.Inert) (s : Settings) (depth : Nat) (place : Location)
    (machine : Machine) :
    let conjoined := visit s depth tree machine
    let chained := visit s depth (.mk place (.comparison first links)) machine
    ((∃ fault after, conjoined = .error fault after ∧ fault.toError.cause.kind = .tooDeep) ∨
      Ends Fault.DiffersInPlace Eq (fun _ => True) conjoined chained) ∧
    (Allowed s (depth + tree.height - 1) →
      Ends Fault.DiffersInPlace Eq (fun _ => True) conjoined chained) ∧
    (∀ result after, chained = .ok result after → ∃ holds, result = some (.boolean holds)) ∧
    (∀ after, chained = .ok (some (.boolean true)) after ↔
      ∃ left middle, evaluate s (depth + 1) first machine = .ok left middle ∧
        LinksHold s (depth + 1) middle left links after) ∧
    ((∀ after, chained ≠ .ok (some (.boolean true)) after) → ∀ more,
      visit s depth (.mk place (.comparison first (links ++ more))) machine = chained) := by
  intro conjoined chained
  have linked : links ≠ [] := by cases conjunction <;> exact List.cons_ne_nil _ _
  have resembles := visit_resembles_conjunction conjunction inert s depth place machine
  refine ⟨resembles, fun room => ?_, fun result after success => ?_, fun after => ?_,
    fun stops more => ?_⟩
  · obtain ⟨fault, after, failed, deep⟩ | ends := resembles
    · exact absurd deep (visit_not_tooDeep room failed)
    · exact ends
  · obtain ⟨_, holds, rfl, _⟩ := (visit_comparison_eq_ok_iff place first linked).mp success
    exact ⟨holds, rfl⟩
  · exact visit_comparison_eq_true_iff place first linked machine after
  · exact visit_comparison_append place first linked stops more

/-- With the variable `a`, which is one: `print(a) < 2 < (var b = 3)` holds, prints `1` and defines
`b`; `a > 2 > ?` is false, and the question mark does not matter. -/
theorem chain_conjoins_defining :
    let here := Node.mk ⟨some 1, none⟩
    let a := here (.identifier "a")
    let two := here (.number "2")
    let last := here (.define "b" (here (.number "3")))
    let links := [("<", two), ("<", last)]
    let tree := here (.and (here (.comparison (here (.print a)) [("<", two)]))
      (here (.comparison two [("<", last)])))
    let machine : Machine := ⟨⟨⟨[("a", .number 1)]⟩⟩, []⟩
    let after : Machine := ⟨⟨⟨[("a", .number 1), ("b", .number 3)]⟩⟩, ["1"]⟩
    (∀ link ∈ links.dropLast, link.2.Inert) ∧ Allowed .standard (1 + tree.height - 1) ∧
      visit .standard 1 (here (.comparison (here (.print a)) links)) machine =
        .ok (some (.boolean true)) after ∧
      Ends Fault.DiffersInPlace Eq (fun _ => True) (visit .standard 1 tree machine)
        (visit .standard 1 (here (.comparison (here (.print a)) links)) machine) ∧
      visit .standard 1 (here (.comparison a [(">", two), (">", here (.misplaced "?"))])) machine =
        visit .standard 1 (here (.comparison a [(">", two)])) machine := by
  intro here a two last links tree machine after
  have leaf : two.nodes = [two] := by simp [two, here, Node.nodes_mk, Form.children]
  have alone (P : Node → Prop) (absent : ¬ P two) : ¬ ∃ inner ∈ two.nodes, P inner := by
    simpa [leaf] using absent
  have inert : ∀ link ∈ links.dropLast, link.2.Inert := by
    intro link member
    obtain rfl := List.mem_singleton.mp member
    refine ⟨fun name => ⟨alone _ ?_, alone _ ?_⟩, alone _ ?_⟩ <;>
      · rintro ⟨expr, form⟩
        cases form
  have room : Allowed .standard (1 + tree.height - 1) := by
    have height : tree.height = 4 := by
      simp [tree, here, two, last, a, Node.height_mk, Form.children, Form.tokenHeight]
    rw [height]
    decide
  have conjoins := chain_conjoins (.and ⟨some 1, none⟩ ⟨some 1, none⟩ (here (.print a))
    (.pair ⟨some 1, none⟩ two ("<", last))) inert .standard 1 ⟨some 1, none⟩ machine
  have stops := (chain_conjoins (.pair ⟨some 1, none⟩ a (">", two)) (List.forall_mem_nil _)
    .standard 1 ⟨some 1, none⟩ machine).2.2.2.2
  have holds : LinksHold .standard 2 ⟨machine.scope, ["1"]⟩ (.number 1) links after :=
    .cons rfl (by decide +kernel) (.cons rfl (by decide +kernel) (.nil _ _))
  refine ⟨inert, room, ?_, conjoins.2.1 room, stops ?_ _⟩
  · exact (conjoins.2.2.2.1 after).mpr ⟨.number 1, ⟨machine.scope, ["1"]⟩, rfl, holds⟩
  · intro next holds
    cases holds

end Eval

end Reckoner
