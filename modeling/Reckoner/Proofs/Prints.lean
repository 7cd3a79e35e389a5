import Reckoner.Proofs.Depth
import Reckoner.Proofs.Log

set_option autoImplicit false

namespace Reckoner

namespace Logged

variable {s : Settings} {straight : Prop} {prints : List Occurrence}

section Perform

variable {depth : Nat} {parts : List Node} {visit : Nat → Node → Logged (Option Value)}
  {recorded : Node × Nat → List Occurrence}

/-- The open part at a position is visited like the part. -/
structure Visits (s : Settings) (depth : Nat) (straight : Prop) (V : Visitor Logged)
    (prints : List Occurrence) (entry : Node × Nat) : Prop where
  visit : Records s straight prints (V.visit (Node.slot entry.2)) (Eval.visit s depth entry.1)
  evaluate : Records s straight prints (V.evaluate (Node.slot entry.2))
    (Eval.evaluate s depth entry.1)

theorem visitor_visits {entry : Node × Nat} (part : entry ∈ parts.zipIdx)
    (records : Records s straight prints (visit entry.2 entry.1) (Eval.visit s depth entry.1)) :
    Visits s depth straight (visitor s depth parts visit) prints entry := by
  have found (default : Node) : parts.getD entry.2 default = entry.1 := by
    rw [List.getD_eq_getElem?_getD, List.mem_zipIdx_iff_getElem?.mp part, Option.getD_some]
  constructor
  · change Records s straight prints (visit entry.2 (parts.getD entry.2 _)) _
    rwa [found]
  · change Records s straight prints
      (require (parts.getD entry.2 _) (visit entry.2 (parts.getD entry.2 _))) _
    rw [found, Eval.evaluate_eq_require]
    exact records.require entry.1

variable {V : Visitor Logged}

theorem records_evaluateAll (nodes : List Node) (first : Nat)
    (visits : ∀ entry ∈ nodes.zipIdx first, Visits s depth straight V (recorded entry) entry) :
    Records s straight ((nodes.zipIdx first).flatMap recorded)
      (V.evaluateAll (Node.slots first nodes)) ((Eval.visitor s depth).evaluateAll nodes) := by
  induction nodes generalizing first with
  | nil => exact .pure []
  | cons node rest ih =>
      apply (visits (node, first) (by simp)).evaluate.bind
      intro value
      exact (ih (first + 1) fun entry later => visits entry (by simp [later])).map _

theorem records_visitAll (nodes : List Node) (first : Nat) (last : Option Value)
    (visits : ∀ entry ∈ nodes.zipIdx first, Visits s depth straight V (recorded entry) entry) :
    Records s straight ((nodes.zipIdx first).flatMap recorded)
      (V.visitAll last (Node.slots first nodes))
      ((Eval.visitor s depth).visitAll last nodes) := by
  induction nodes generalizing first last with
  | nil => exact .pure last
  | cons node rest ih =>
      apply (visits (node, first) (by simp)).visit.bind
      intro result
      exact ih (first + 1) result fun entry later => visits entry (by simp [later])

theorem records_compareAll (links : List (String × Node)) (first : Nat) (left : Value)
    (short : straight → links.length ≤ 1)
    (visits : ∀ entry ∈ (links.map Prod.snd).zipIdx first,
      Visits s depth straight (visitor s depth parts visit) (recorded entry) entry) :
    Records s straight (((links.map Prod.snd).zipIdx first).flatMap recorded)
      ((visitor s depth parts visit).compareAll s.tolerance left
        ((links.zipIdx first).map fun entry => (entry.1.1, Node.slot entry.2)))
      ((Eval.visitor s depth).compareAll s.tolerance left links) := by
  induction links generalizing first left with
  | nil => exact .pure true
  | cons link rest ih =>
      obtain ⟨operator, node⟩ := link
      apply (visits (node, first) (by simp)).evaluate.bind
      intro right
      refine (Records.ofExcept _).bind fun holds => ?_
      cases holds with
      | true =>
          apply ih (first + 1) right
          · exact fun holds => Nat.le_succ_of_le (Nat.le_of_succ_le_succ (short holds))
          · exact fun entry later => visits entry (by simp at later ⊢; exact Or.inr later)
      | false =>
          -- The chain breaks off, which skips something unless this was its only link.
          refine (Records.pure false).skip fun holds => ?_
          have last : rest = [] := by simpa using short holds
          simp [last]

/-- A juxtaposition multiplies its factors, one of which may be a part. -/
theorem records_juxtaposition (place : Location) {number : Option String} {constant : Option Token}
    {names : List String} {group : Option Node} {parenthesized : Bool}
    (visits : ∀ entry ∈ group.toList.zipIdx,
      Visits s depth straight (visitor s depth parts visit) (recorded entry) entry) :
    Records s straight (group.toList.zipIdx.flatMap recorded)
      ((visitor s depth parts visit).perform s.tolerance place
        (.juxtaposition number constant names (group.map fun _ => Node.slot 0) parenthesized))
      ((Eval.visitor s depth).perform s.tolerance place
        (.juxtaposition number constant names group parenthesized)) := by
  have product (a b : Value) : Records s straight []
      (some <$> ofRun (Run.ofExcept (Arith.multiply s.tolerance a b)))
      (some <$> Run.ofExcept (Arith.multiply s.tolerance a b)) := (Records.ofExcept _).map some
  have name (name : String) : Records s straight [] (ofRun (Run.lookup name)) (Run.lookup name) :=
    .ofRun (Run.silent_lookup name)
  simp only [Visitor.perform]
  fun_cases Form.factors? number constant names group parenthesized with
  | case1 text right => exact ((Records.ofExcept _).map _).pair (name right) product
  | case2 text group =>
      exact ((Records.ofExcept _).map _).pair (visits (group, 0) (by simp)).evaluate product
  | case3 token right =>
      exact (Records.ofRun (Run.silent_token s depth token)).pair (name right) product
  | case4 left right => exact (name left).pair (name right) product
  | case5 left group =>
      exact (name left).pair (visits (group, 0) (by simp)).evaluate product
  | case6 number constant names group parenthesized =>
      rw [Form.factors?]
      · exact .throw _
      all_goals grind [Option.map_eq_none_iff, Option.map_eq_some_iff]

/-- A form that is no print is performed with its parts left open. -/
theorem records_opened (place : Location) {form : Form}
    (silent : ∀ expr, form ≠ .print expr) (all : straight → form.Straight)
    (visits : ∀ entry ∈ form.children.zipIdx,
      Visits s depth straight (visitor s depth parts visit) (recorded entry) entry) :
    Records s straight (form.children.zipIdx.flatMap recorded)
      ((visitor s depth parts visit).perform s.tolerance place form.opened)
      ((Eval.visitor s depth).perform s.tolerance place form) := by
  cases form with
  | program statements => exact records_visitAll statements 0 none visits
  | statement body =>
      cases body with
      | none => exact .pure none
      | some body => exact (visits (body, 0) (by simp [Form.children])).visit.alone
  | equationStatement part => exact (visits (part, 0) (by simp [Form.children])).visit.alone
  | define name expr =>
      refine (Records.ofRun (Run.silent_hasVariable name)).bind fun bound => ?_
      cases bound with
      | true => exact .throw _
      | false =>
          exact (visits (expr, 0) (by simp [Form.children])).evaluate.store fun _ =>
            Run.silent_update _
  | assign name expr =>
      refine (Records.ofRun (Run.silent_hasVariable name)).bind fun bound => ?_
      cases bound with
      | true =>
          exact (visits (expr, 0) (by simp [Form.children])).evaluate.store fun _ =>
            Run.silent_update _
      | false => exact .throw _
  | print expr => exact absurd rfl (silent expr)
  | equation left right =>
      exact (visits (left, 0) (by simp [Form.children])).evaluate.pair
        (visits (right, 1) (by simp [Form.children])).evaluate fun a b =>
          (Records.ofExcept _).bind fun same => .pure _
  | arith left operator right | term left operator right =>
      exact (visits (left, 0) (by simp [Form.children])).evaluate.pair
        (visits (right, 1) (by simp [Form.children])).evaluate fun a b =>
          (Records.ofExcept _).map some
  | power base exponent =>
      have first := (visits (base, 0) (by simp [Form.children])).evaluate
      cases exponent with
      | none => exact (first.map some).alone
      | some exponent =>
          exact first.pair (visits (exponent, 1) (by simp [Form.children])).evaluate fun a b =>
            (Records.ofExcept _).map some
  | or left right =>
      apply (visits (left, 0) (by simp [Form.children])).evaluate.bind
      intro a
      split
      · exact (Records.pure _).skip fun holds => (all holds).elim
      · apply (visits (right, 1) (by simp [Form.children])).evaluate.bind
        exact fun b => .pure _
  | and left right =>
      apply (visits (left, 0) (by simp [Form.children])).evaluate.bind
      intro a
      split
      · apply (visits (right, 1) (by simp [Form.children])).evaluate.bind
        exact fun b => .pure _
      · exact (Records.pure _).skip fun holds => (all holds).elim
  | not operand =>
      apply (visits (operand, 0) (by simp [Form.children])).visit.bind
      exact fun result => .pure _
  | comparison first rest =>
      cases rest with
      | nil => exact ((visits (first, 0) (by simp [Form.children])).evaluate.map some).alone
      | cons link rest =>
          apply (visits (first, 0) (by simp [Form.children])).evaluate.bind
          intro left
          refine (records_compareAll (link :: rest) 1 left (fun holds => ?_) fun entry later =>
            visits entry (List.mem_cons_of_mem _ later)).map _
          cases rest with
          | nil => exact Nat.le_refl 1
          | cons => exact (all holds).elim
  | unary operator operand =>
      have inner := (visits (operand, 0) (by simp [Form.children])).evaluate
      cases operator with
      | none => exact (inner.map some).alone
      | some operator =>
          simp only [Form.opened, Visitor.perform]
          split
          · exact (inner.map some).alone
          · split
            · exact inner.bind fun value => (Records.ofExcept _).map some
            · exact .throw _
  | number text => exact (Records.ofExcept _).bind fun x => .pure _
  | imaginary text | constant text => exact (Records.ofExcept _).map some
  | identifier name => exact (Records.ofRun (Run.silent_lookup name)).map some
  | expressionStatement part | paren part | row part =>
      exact ((visits (part, 0) (by simp [Form.children])).evaluate.map some).alone
  | factorial operand =>
      apply (visits (operand, 0) (by simp [Form.children])).evaluate.bind
      exact fun value => (Records.ofExcept _).map some
  | juxtaposition number constant names group parenthesized =>
      exact records_juxtaposition place visits
  | call function arguments =>
      rw [← List.append_nil (List.flatMap _ _)]
      apply (records_evaluateAll arguments 0 visits).bind
      exact fun values => (Records.ofRun (Run.silent_call _ _ values)).map some
  | argumentList items | expressionList items | matrix items =>
      exact (records_evaluateAll items 0 visits).map _
  | vector items =>
      cases items with
      | none => exact .pure _
      | some items => exact ((visits (items, 0) (by simp [Form.children])).evaluate.map some).alone
  | terminal text => exact .pure _
  | misplaced text => exact .throw _
  | blank => exact .pure none
  | atom => exact .throw _

/-- A print is recorded after what its expression records, and accounts for its line. -/
theorem records_print (address : List Nat) (place : Location) {expr : Node}
    (visits : ∀ entry ∈ [expr].zipIdx,
      Visits s depth straight (visitor s depth parts visit) (recorded entry) entry) :
    Records s straight ([expr].zipIdx.flatMap recorded ++ [⟨address, expr⟩])
      (perform (visitor s depth parts visit) s.tolerance address place (.print expr))
      ((Eval.visitor s depth).perform s.tolerance place (.print expr)) := by
  intro machine log
  have ends := (visits (expr, 0) (by simp)).evaluate.alone machine log
  simp only [perform, Visitor.perform, Eval.visitor, Bind.bind, EStateM.bind]
  generalize evaluated : Eval.evaluate s depth expr machine = other at ends ⊢
  generalize (visitor s depth parts visit).evaluate (Node.slot 0) (machine, log) = outcome at ends ⊢
  cases ends with
  | error recorded printing within =>
      exact .error recorded printing (within.trans (List.sublist_append_left _ _))
  | ok recorded printing within all =>
      subst recorded
      refine .ok (List.append_assoc _ _ _) (printing.print evaluated) ?_ fun holds => ?_
      · rw [List.map_append]
        exact within.append (.refl _)
      · rw [List.map_append, all holds]
        rfl

/-- What the parts of a form record, the form records, and a print comes last. -/
theorem records_perform (address : List Nat) (place : Location) {form : Form}
    (all : straight → form.Straight)
    (visits : ∀ entry ∈ form.children.zipIdx,
      Visits s depth straight (visitor s depth parts visit) (recorded entry) entry) :
    Records s straight (form.children.zipIdx.flatMap recorded ++ form.printAt address)
      (perform (visitor s depth parts visit) s.tolerance address place form)
      ((Eval.visitor s depth).perform s.tolerance place form) := by
  cases form with
  | print expr => exact records_print address place visits
  | _ =>
      refine (records_opened place ?_ all visits).alone
      exact fun _ => nofun

end Perform

end Logged

namespace Eval

variable (s : Settings)

/-- The logged visit of a tree goes like the visit, and keeps a log of it. -/
theorem logged_records (depth : Nat) (address : List Nat) (node : Node) :
    Logged.Records s node.Straight (node.printsAt address) (logged s depth address node)
      (visit s depth node) := by
  -- The induction is over the room that is left below a node, as the logged visit recurses on it.
  induction room : s.stackLimit + 1 - depth using Nat.strongRecOn
    generalizing depth address node with
  | ind room ih =>
      obtain ⟨place, form⟩ := node
      rw [logged, visit, enter]
      apply Logged.Records.within
      by_cases deep : s.maxDepth < depth
      · rw [if_pos deep, if_pos deep]
        exact .throw _
      rw [if_neg deep, if_neg deep]
      by_cases exhausted : s.stackLimit < depth
      · rw [dif_pos exhausted, if_pos exhausted]
        exact .throw _
      rw [dif_neg exhausted, if_neg exhausted, dispatch_eq_perform, Node.printsAt_mk]
      refine Logged.records_perform address place (fun straight => ?_) fun entry part => ?_
      · exact straight _ (Node.self_mem_nodes _)
      · apply Logged.visitor_visits part
        apply (ih _ (by omega) (depth + 1) (address ++ [entry.2]) entry.1 rfl).mono
        intro straight inner inside
        exact straight inner (Node.mem_nodes_of_child (List.fst_mem_of_mem_zipIdx part) inside)

/-- Insisting on a value leaves the machine as it is. -/
theorem after_evaluate (depth : Nat) (node : Node) (machine : Machine) :
    (evaluate s depth node).after machine = (visit s depth node).after machine := by
  rw [evaluate_eq_require]
  unfold require Run.after
  cases outcome : visit s depth node machine with
  | ok result after =>
      rw [Run.bind_of_ok outcome]
      cases result <;> rfl
  | error fault after => rw [Run.bind_of_error outcome]

def log (s : Settings) (depth : Nat) (tree : Node) (machine : Machine) : List Event :=
  match logged s depth [] tree (machine, []) with
  | .ok _ (_, events) | .error _ (_, events) => events

/-- The log of a visit is that of the logged visit, which goes like it. -/
theorem logged_eq_outcome (depth : Nat) (tree : Node) (machine : Machine) :
    logged s depth [] tree (machine, []) =
      Logged.outcome (log s depth tree machine) (visit s depth tree machine) := by
  have ends := logged_records s depth [] tree machine []
  unfold log
  generalize logged s depth [] tree (machine, []) = outcome, visit s depth tree machine = other
    at ends ⊢
  cases ends <;> rfl

end Eval

/-- The events account for the lines from `start` on. Each of them is of a print in the tree, and of
another one each time, and their order is that of the tree. -/
structure Node.PrintsInOrder (tree : Node) (s : Settings) (events : List Event)
    (start lines : List String) : Prop where
  printing : Printing s start events lines
  lines_eq : lines = start ++ events.map (Event.line s.tolerance)
  located : ∀ event ∈ events, ∃ place,
    tree.at? event.print.address = some (.mk place (.print event.print.expr))
  distinct : (events.map (·.print.address)).Nodup
  inOrder : (events.map Event.print).Sublist tree.prints

theorem Node.PrintsInOrder.of_sublist {tree : Node} {s : Settings} {events : List Event}
    {start lines : List String} (printing : Printing s start events lines)
    (inOrder : (events.map Event.print).Sublist tree.prints) :
    tree.PrintsInOrder s events start lines where
  printing := printing
  lines_eq := printing.lines_eq
  located event member := by
    have listed := inOrder.subset (List.mem_map_of_mem member)
    obtain ⟨_, place, leads, found⟩ := mem_printsAt_iff.mp listed
    rw [List.nil_append] at leads
    exact ⟨place, leads ▸ found⟩
  distinct := by
    have distinct := (tree.printsAt_distinct []).sublist inOrder
    rw [List.pairwise_map] at distinct
    rwa [List.Nodup, List.pairwise_map]
  inOrder := inOrder

/-- The log of a visit accounts for its lines, and is complete if the visit succeeds and nothing in
the tree can be skipped. -/
theorem Eval.log_prints (s : Settings) (depth : Nat) (tree : Node) (machine : Machine) :
    let events := log s depth tree machine
    tree.PrintsInOrder s events machine.printed ((visit s depth tree).after machine).printed ∧
      ∀ result after, visit s depth tree machine = .ok result after → tree.Straight →
        events.map Event.print = tree.prints := by
  have ends := logged_records s depth [] tree machine []
  rw [logged_eq_outcome] at ends
  unfold Run.after
  generalize log s depth tree machine = events, visit s depth tree machine = outcome at ends ⊢
  cases outcome with
  | ok result after =>
      obtain ⟨rfl, printing, inOrder, all⟩ := ends
      exact ⟨.of_sublist printing inOrder, fun _ _ _ => all⟩
  | error fault after =>
      obtain _ | ⟨rfl, printing, inOrder⟩ := ends
      exact ⟨.of_sublist printing inOrder, nofun⟩

theorem Session.perform_eq_ok {α : Type} {session : Session} {step : Run α} {a : α}
    (success : (session.perform (.ofRun step)).result = .ok a) :
    ∃ after, step ⟨session.scope, []⟩ = .ok a after := by
  rw [perform_ofRun] at success
  cases outcome : step ⟨session.scope, []⟩ with
  | ok b after =>
      rw [outcome] at success
      cases success
      exact ⟨after, rfl⟩
  | error fault after =>
      rw [outcome] at success
      cases success

/-- The lines of a visit are those of its log, which goes like the visit. Each of them is the text
of the value that the expression of a print had; no print of the tree is in the log twice, and the
prints are in their order in the tree. If the visit succeeds and nothing in the tree can be skipped,
no print is left out. Evaluating a tree or running it prints what visiting it prints. -/
theorem prints_once_in_order (tree : Node) :
    (∀ s depth machine,
      let events := Eval.log s depth tree machine
      let after := (Eval.visit s depth tree).after machine
      Eval.logged s depth [] tree (machine, []) =
        Logged.outcome events (Eval.visit s depth tree machine) ∧
      (Eval.evaluate s depth tree).after machine = after ∧
      tree.PrintsInOrder s events machine.printed after.printed ∧
      ∀ result, Eval.visit s depth tree machine = .ok result after → tree.Straight →
        events.map Event.print = tree.prints) ∧
    ∀ session : Session,
      let events := Eval.log session.settings 1 tree ⟨session.scope, []⟩
      tree.PrintsInOrder session.settings events [] (session.run tree).printed ∧
      ∀ result, (session.run tree).result = .ok result → tree.Straight →
        events.map Event.print = tree.prints := by
  constructor
  · intro s depth machine events after
    obtain ⟨inOrder, all⟩ := Eval.log_prints s depth tree machine
    exact ⟨Eval.logged_eq_outcome s depth tree machine, Eval.after_evaluate s depth tree machine,
      inOrder, fun result success => all result after success⟩
  · intro session events
    obtain ⟨inOrder, all⟩ := Eval.log_prints session.settings 1 tree ⟨session.scope, []⟩
    have visits := session.reset.visit_eq tree
    refine ⟨?_, fun result success => ?_⟩
    · change tree.PrintsInOrder session.settings events [] (session.reset.visit tree).printed
      rw [visits, Session.printed_perform]
      exact inOrder
    · have visited := Session.run_eq_ok.mp success
      rw [visits] at visited
      obtain ⟨after, visited⟩ := Session.perform_eq_ok visited
      exact all result after visited

/-- In `print([print(1), print(1)]); print(1) or print(1)` the last print is skipped. In the first
statement none is. -/
theorem prints_once_in_order_nested :
    let here := Node.mk Location.unknown
    let one := here (.print (here (.number "1")))
    let nested := here (.print (here (.expressionList [one, one])))
    let tree := here (.program [nested, here (.or one one)])
    let session := Session.fresh .standard ⟨.empty⟩
    let log (tree : Node) := Eval.log session.settings 1 tree ⟨session.scope, []⟩
    (session.run tree).printed = ["1", "1", "[1, 1]", "1"] ∧
      (log tree).map (·.print.address) = [[0, 0, 0], [0, 0, 1], [0], [1, 0]] ∧
      tree.prints.map (·.address) = [[0, 0, 0], [0, 0, 1], [0], [1, 0], [1, 1]] ∧
      tree.PrintsInOrder session.settings (log tree) [] (session.run tree).printed ∧
      (session.run nested).result = .ok (some (.list [.number 1, .number 1])) ∧ nested.Straight ∧
      (log nested).map Event.print = nested.prints := by
  intro here one nested tree session log
  have success : (session.run nested).result = .ok (some (.list [.number 1, .number 1])) := rfl
  have straight : nested.Straight := by
    simp [Node.Straight, Form.Straight, Node.form, nested, one, here, Node.nodes_mk, Form.children]
  exact ⟨by decide +kernel, by decide +kernel, by decide +kernel,
    ((prints_once_in_order tree).2 session).1, success, straight,
    ((prints_once_in_order nested).2 session).2 _ success straight⟩

end Reckoner
