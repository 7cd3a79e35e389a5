import Reckoner.Proofs.Juxtaposition
import Reckoner.Proofs.Lockstep
import Reckoner.Proofs.Parallel

set_option autoImplicit false

namespace Reckoner

/-- How a tree is rewritten from the bottom up. -/
structure Rewriting where
  /-- Where a node is moved. -/
  place : Location → Location
  /-- What is put in place of a part that has to have a value, once it is rewritten itself. -/
  core : Node → Node
  core_constant : ∀ place text, core (.mk place (.constant text)) = .mk place (.constant text)

namespace Rewriting

/-- The token of a juxtaposition is moved like a node. -/
def token (R : Rewriting) (token : Token) : Token :=
  { token with location := R.place token.location }

mutual

def node (R : Rewriting) : Node → Node
  | .mk place form => .mk (R.place place) (R.form form)

def operand (R : Rewriting) : Node → Node
  | .mk place form => R.core (.mk (R.place place) (R.form form))

def nodes (R : Rewriting) : List Node → List Node
  | [] => []
  | part :: rest => R.node part :: R.nodes rest

def operands (R : Rewriting) : List Node → List Node
  | [] => []
  | part :: rest => R.operand part :: R.operands rest

def links (R : Rewriting) : List (String × Node) → List (String × Node)
  | [] => []
  | (operator, part) :: rest => (operator, R.operand part) :: R.links rest

def form (R : Rewriting) : Form → Form
  | .program statements => .program (R.nodes statements)
  | .statement none => .statement none
  | .statement (some body) => .statement (some (R.node body))
  | .define name expr => .define name (R.operand expr)
  | .assign name expr => .assign name (R.operand expr)
  | .equation left right => .equation (R.operand left) (R.operand right)
  | .equationStatement question => .equationStatement (R.node question)
  | .print expr => .print (R.operand expr)
  | .expressionStatement expr => .expressionStatement (R.operand expr)
  | .or left right => .or (R.operand left) (R.operand right)
  | .and left right => .and (R.operand left) (R.operand right)
  | .not operand => .not (R.node operand)
  | .comparison first rest => .comparison (R.operand first) (R.links rest)
  | .arith left operator right => .arith (R.operand left) operator (R.operand right)
  | .term left operator right => .term (R.operand left) operator (R.operand right)
  | .power base none => .power (R.operand base) none
  | .power base (some exponent) => .power (R.operand base) (some (R.operand exponent))
  | .unary operator part => .unary operator (R.operand part)
  | .number text => .number text
  | .imaginary text => .imaginary text
  | .constant text => .constant text
  | .identifier name => .identifier name
  | .paren expr => .paren (R.operand expr)
  | .factorial part => .factorial (R.operand part)
  | .juxtaposition numeral constant names none parenthesized =>
    .juxtaposition numeral (constant.map R.token) names none parenthesized
  | .juxtaposition numeral constant names (some group) parenthesized =>
    .juxtaposition numeral (constant.map R.token) names (some (R.operand group)) parenthesized
  | .call function arguments => .call function (R.operands arguments)
  | .argumentList items => .argumentList (R.operands items)
  | .expressionList items => .expressionList (R.operands items)
  | .vector none => .vector none
  | .vector (some items) => .vector (some (R.operand items))
  | .row items => .row (R.operand items)
  | .matrix rows => .matrix (R.operands rows)
  | .terminal text => .terminal text
  | .misplaced text => .misplaced text
  | .blank => .blank
  | .atom => .atom

end

variable (R : Rewriting)

theorem operand_eq_core (part : Node) : R.operand part = R.core (R.node part) := by
  cases part
  rfl

theorem nodes_eq_map (parts : List Node) : R.nodes parts = parts.map R.node := by
  induction parts with
  | nil => rfl
  | cons part rest ih => rw [nodes, ih, List.map_cons]

theorem operands_eq_map (parts : List Node) : R.operands parts = parts.map R.operand := by
  induction parts with
  | nil => rfl
  | cons part rest ih => rw [operands, ih, List.map_cons]

theorem operand_token (token : Token) : R.operand token.node = (R.token token).node :=
  R.core_constant _ _

theorem form_juxtaposition (numeral : Option String) (constant : Option Token)
    (names : List String) (group : Option Node) (parenthesized : Bool) :
    R.form (.juxtaposition numeral constant names group parenthesized) =
      .juxtaposition numeral (constant.map R.token) names (group.map R.operand) parenthesized := by
  cases group <;> rfl

def factor : Factor → Factor
  | .part node => .part (R.operand node)
  | factor => factor

/-- The rewritten slots have the rewritten factors. -/
theorem factors?_map (numeral : Option String) (constant : Option Token) (names : List String)
    (group : Option Node) (parenthesized : Bool) :
    Form.factors? numeral (constant.map R.token) names (group.map R.operand) parenthesized =
      (Form.factors? numeral constant names group parenthesized).map
        (Prod.map R.factor R.factor) := by
  fun_cases Form.factors? numeral constant names group parenthesized with
  | case3 token name =>
      simp only [Option.map_some, Prod.map_apply, factor, operand_token]
      rfl
  | case6 numeral constant names group parenthesized =>
      rw [Form.factors?]
      · rfl
      all_goals grind [Option.map_eq_none_iff, Option.map_eq_some_iff]
  | _ => rfl

theorem juxtapositionParts_map (numeral : Option String) (constant : Option Token)
    (names : List String) (parenthesized : Bool) :
    Eval.juxtapositionParts numeral (constant.map R.token) names parenthesized =
      Eval.juxtapositionParts numeral constant names parenthesized := by
  cases constant <;> rfl

/-- Rewriting the parts of a form does not change what it is called. -/
theorem name_form (form : Form) : (R.form form).name = form.name := by
  cases form with
  | statement part | vector part | power _ part | juxtaposition _ _ _ part _ =>
      cases part <;> rfl
  | _ => rfl

end Rewriting

/-- Induction over trees by all that can be visited in a node. -/
theorem Node.induct_parts {P : Node → Prop}
    (step : ∀ place form, (∀ part ∈ form.parts, P part) → P (.mk place form)) (node : Node) :
    P node := by
  induction node using Node.induct with
  | step place form ih =>
      apply step
      intro part member
      rcases Form.child_or_token_of_mem_parts member with child | ⟨token, _, rfl⟩
      · exact ih part child
      · exact step _ _ (by simp [Form.parts, Form.children])

namespace Visitor

variable {M : Type → Type} [Monad M]

def rewriting (V : Visitor M) (R : Rewriting) : Visitor M where
  own := V.own
  visit node := V.visit (R.node node)
  evaluate node := V.evaluate (R.operand node)

variable (V : Visitor M) (R : Rewriting)

theorem visitAll_rewriting (parts : List Node) (last : Option Value) :
    V.visitAll last (R.nodes parts) = (V.rewriting R).visitAll last parts := by
  induction parts generalizing last with
  | nil => rfl
  | cons part rest ih =>
      rw [Rewriting.nodes, visitAll, visitAll]
      exact congrArg _ (funext fun result => ih result)

theorem evaluateAll_rewriting (parts : List Node) :
    V.evaluateAll (R.operands parts) = (V.rewriting R).evaluateAll parts := by
  induction parts with
  | nil => rfl
  | cons part rest ih =>
      rw [Rewriting.operands, evaluateAll, evaluateAll, ih]
      rfl

theorem compareAll_rewriting (t : Tolerance) (links : List (String × Node)) (left : Value) :
    V.compareAll t left (R.links links) = (V.rewriting R).compareAll t left links := by
  induction links generalizing left with
  | nil => rfl
  | cons link rest ih =>
      obtain ⟨operator, part⟩ := link
      rw [Rewriting.links, compareAll, compareAll]
      simp only [ih]
      rfl

theorem factor_rewriting (factor : Factor) :
    V.factor (R.factor factor) = (V.rewriting R).factor factor := by
  cases factor <;> rfl

/-- A visitor does with a rewritten form what it does with the form by visiting rewritten parts. -/
theorem perform_rewriting (t : Tolerance) (place : Location) (form : Form) :
    V.perform t place (R.form form) = (V.rewriting R).perform t place form := by
  cases form with
  | program statements => exact V.visitAll_rewriting R statements none
  | comparison first rest =>
      cases rest with
      | nil => rfl
      | cons link rest =>
          obtain ⟨operator, part⟩ := link
          have chain := V.compareAll_rewriting R t ((operator, part) :: rest)
          simp only [Rewriting.form, Rewriting.links] at chain ⊢
          simp only [perform, chain]
          rfl
  | juxtaposition numeral constant names group parenthesized =>
      rw [R.form_juxtaposition, perform, perform, R.factors?_map, R.juxtapositionParts_map]
      cases Form.factors? numeral constant names group parenthesized with
      | none => rfl
      | some factors =>
          obtain ⟨left, right⟩ := factors
          simp only [Option.map_some, Prod.map_apply, V.factor_rewriting]
          rfl
  | call function arguments =>
      simp only [Rewriting.form, perform, V.evaluateAll_rewriting R]
      rfl
  | argumentList items | expressionList items | matrix items =>
      simp only [Rewriting.form, perform, V.evaluateAll_rewriting R]
  | statement part | vector part | power _ part | unary part _ => cases part <;> rfl
  | _ => rfl

/-- Only an atom of no particular form says where it stands. -/
theorem perform_elsewhere {form : Form} (particular : form ≠ .atom) (t : Tolerance)
    (place other : Location) : V.perform t place form = V.perform t other form := by
  cases form with
  | statement part | vector part | power _ part | unary part _ => cases part <;> rfl
  | comparison first rest => cases rest <;> rfl
  | atom => exact absurd rfl particular
  | _ => rfl

end Visitor

/-- Faults that differ at most in their places. -/
inductive Fault.SameCause : Fault → Fault → Prop
  | error (cause : Cause) (place other : Location) :
      SameCause (.error ⟨cause, place⟩) (.error ⟨cause, other⟩)
  | breakdown (b : Breakdown) : SameCause (.breakdown b) (.breakdown b)

namespace Fault

theorem SameCause.refl (fault : Fault) : fault.SameCause fault := by
  cases fault with
  | error e => exact .error e.cause e.location e.location
  | breakdown b => exact .breakdown b

theorem SameCause.within {fault other : Fault} (same : fault.SameCause other)
    (place elsewhere : Location) : (fault.within place).SameCause (other.within elsewhere) := by
  cases same with
  | error cause inner outer => exact .error cause _ _
  | breakdown b => exact .breakdown b

theorem cause_within (fault : Fault) (place : Location) :
    (fault.within place).toError.cause = fault.toError.cause := by
  cases fault <;> rfl

end Fault

/-- Errors with reports that differ at most in the place, and so in the one line of the text that
gives it. -/
structure Error.DiffersInPlace (e other : Error) : Prop where
  diagnostic : other.diagnostic = e.diagnostic.withLocation other.location
  lines : ∃ head rest,
    e.diagnostic.lines = head ++ Diagnostic.locationLine e.location ++ rest ∧
      other.diagnostic.lines = head ++ Diagnostic.locationLine other.location ++ rest
  texts : e.diagnostic.Coherent ∧ other.diagnostic.Coherent

inductive Fault.DiffersInPlace : Fault → Fault → Prop
  | error {e other : Error} : e.DiffersInPlace other → DiffersInPlace (.error e) (.error other)
  | breakdown (b : Breakdown) : DiffersInPlace (.breakdown b) (.breakdown b)

theorem Error.DiffersInPlace.ofCause (cause : Cause) (place other : Location) :
    DiffersInPlace ⟨cause, place⟩ ⟨cause, other⟩ where
  diagnostic := rfl
  lines := by
    simp only [Details.lines, List.append_assoc]
    exact ⟨_, _, rfl, rfl⟩
  texts := ⟨Diagnostic.coherent_withLocation _ _, Diagnostic.coherent_withLocation _ _⟩

theorem Fault.SameCause.differsInPlace {fault other : Fault} (same : fault.SameCause other) :
    fault.DiffersInPlace other := by
  cases same with
  | error cause place other => exact .error (.ofCause cause place other)
  | breakdown b => exact .breakdown b

theorem Fault.DiffersInPlace.toError {fault other : Fault} (differs : fault.DiffersInPlace other) :
    fault.toError.DiffersInPlace other.toError := by
  cases differs with
  | error differs => exact differs
  | breakdown b => exact .ofCause _ _ _

namespace Run

variable {α β : Type} {excused : Cause → Prop} {good : α → Prop} {better : β → Prop}

/-- From every machine the two steps end alike, but for the places of errors, unless the first fails
for a reason that is excused. -/
def Resembles (excused : Cause → Prop) (good : α → Prop) (step other : Run α) : Prop :=
  ∀ machine, (∃ fault after, step machine = .error fault after ∧ excused fault.toError.cause) ∨
    Ends Fault.SameCause Eq good (step machine) (other machine)

namespace Resembles

theorem refl (step : Run α) : Resembles excused (fun _ => True) step step := by
  intro machine
  cases step machine with
  | ok a after => exact Or.inr (.ok trivial rfl)
  | error fault after => exact Or.inr (.error (.refl fault) rfl)

theorem pure {a : α} (holds : good a) : Resembles excused good (Pure.pure a) (Pure.pure a) :=
  fun _ => Or.inr (.ok holds rfl)

theorem throw {fault other : Fault} (same : fault.SameCause other) :
    Resembles excused good (throw fault : Run α) (throw other : Run α) :=
  fun _ => Or.inr (.error same rfl)

theorem ofExcept {fair : Fault → Prop} {result : Except Fault α}
    (computes : Computes good fair result) :
    Resembles excused good (Run.ofExcept result) (Run.ofExcept result) := by
  cases result with
  | ok a => exact pure computes
  | error fault => exact throw (.refl fault)

theorem mono {weaker : α → Prop} {step other : Run α}
    (resembles : Resembles excused good step other)
    (weaken : ∀ a, good a → weaker a) : Resembles excused weaker step other :=
  fun machine => (resembles machine).imp id fun ends => ends.mono (fun _ _ same => same) weaken

theorem bind {step other : Run α} {f g : α → Run β} (first : Resembles excused good step other)
    (next : ∀ a, good a → Resembles excused better (f a) (g a)) :
    Resembles excused better (step >>= f) (other >>= g) := by
  intro machine
  simp only [Bind.bind, EStateM.bind]
  rcases first machine with ⟨fault, after, failed, excuse⟩ | ends
  · rw [failed]
    exact Or.inl ⟨fault, after, rfl, excuse⟩
  · generalize step machine = outcome, other machine = another at ends ⊢
    cases ends with
    | ok holds same => exact same ▸ next _ holds _
    | error alike same => exact Or.inr (.error alike same)

theorem within {step other : Run α} (resembles : Resembles excused good step other)
    (place elsewhere : Location) :
    Resembles excused good (Run.within place step) (Run.within elsewhere other) := by
  intro machine
  simp only [Run.within]
  rcases resembles machine with ⟨fault, after, failed, excuse⟩ | ends
  · rw [failed]
    exact Or.inl ⟨fault.within place, after, rfl, fault.cause_within place ▸ excuse⟩
  · generalize step machine = outcome, other machine = another at ends ⊢
    cases ends with
    | ok holds same => exact Or.inr (.ok holds same)
    | error alike same => exact Or.inr (.error (alike.within place elsewhere) same)

end Resembles

end Run

/-- A node is evaluated like the rewritten one, with and without insisting on a value. -/
structure Rewriting.Preserves (R : Rewriting) (s : Settings) (excused : Cause → Prop)
    (depth lower : Nat) (node : Node) : Prop where
  visit : Run.Resembles excused (fun _ => True) (Eval.visit s depth node)
    (Eval.visit s lower (R.node node))
  evaluate : Run.Resembles excused (fun _ => True) (Eval.evaluate s depth node)
    (Eval.evaluate s lower (R.operand node))

namespace Eval

variable {s : Settings} {excused : Cause → Prop} {depth lower : Nat}

/-- The depths are the same, or the second is lower and the first may be too deep. -/
def Excuses (excused : Cause → Prop) (depth lower : Nat) : Prop :=
  depth = lower ∨ (lower ≤ depth ∧ ∀ cause : Cause, cause.kind = .tooDeep → excused cause)

theorem Excuses.succ (level : Excuses excused depth lower) :
    Excuses excused (depth + 1) (lower + 1) :=
  level.imp (congrArg Nat.succ) (And.imp_left Nat.succ_le_succ)

theorem Allowed.of_le (allowed : Allowed s depth) (le : lower ≤ depth) : Allowed s lower := by
  unfold Allowed at *
  omega

/-- A depth that is not allowed is too deep, and nothing happens there. -/
theorem enter_of_not_allowed (beyond : ¬ Allowed s depth) (place : Location)
    (step : Run (Option Value)) :
    ∃ fault : Fault, fault.toError.cause.kind = .tooDeep ∧
      ∀ machine, enter s depth place step machine = .error fault machine := by
  unfold Allowed at beyond
  unfold enter
  by_cases deep : s.maxDepth < depth
  · rw [if_pos deep]
    exact ⟨_, rfl, fun _ => rfl⟩
  · rw [if_neg deep, if_pos (by omega)]
    exact ⟨_, rfl, fun _ => rfl⟩

/-- Entering a node makes no more of a step than what it does to the machine at hand. -/
theorem enter_congr {place : Location} {step other : Run (Option Value)} {machine : Machine}
    (same : Allowed s depth → step machine = other machine) :
    enter s depth place step machine = enter s depth place other machine := by
  unfold enter
  by_cases deep : s.maxDepth < depth
  · rw [if_pos deep, if_pos deep]
  by_cases exhausted : s.stackLimit < depth
  · rw [if_neg deep, if_neg deep, if_pos exhausted, if_pos exhausted]
  have allowed : Allowed s depth := ⟨by omega, by omega⟩
  rw [if_neg deep, if_neg deep, if_neg exhausted, if_neg exhausted, Run.within, Run.within,
    same allowed]

/-- A step at an allowed depth is all that gives a result. -/
theorem enter_eq_ok_iff {place : Location} {step : Run (Option Value)} {machine after : Machine}
    {result : Option Value} :
    enter s depth place step machine = .ok result after ↔
      Allowed s depth ∧ step machine = .ok result after := by
  by_cases allowed : Allowed s depth
  · rw [enter_of_allowed allowed, Run.within]
    cases step machine <;> simp [allowed]
  · obtain ⟨fault, _, fails⟩ := enter_of_not_allowed allowed place step
    simp [fails, allowed]

theorem resembles_enter (level : Excuses excused depth lower) {step other : Run (Option Value)}
    (resembles : Run.Resembles excused (fun _ => True) step other) (place elsewhere : Location) :
    Run.Resembles excused (fun _ => True) (enter s depth place step)
      (enter s lower elsewhere other) := by
  rcases level with rfl | ⟨le, deep⟩
  · apply Run.Resembles.within
    split
    · exact Run.Resembles.refl _
    · split
      · exact Run.Resembles.refl _
      · exact resembles
  · by_cases allowed : Allowed s depth
    · rw [enter_of_allowed allowed, enter_of_allowed (allowed.of_le le)]
      exact resembles.within place elsewhere
    · obtain ⟨fault, kind, fails⟩ := enter_of_not_allowed allowed place step
      exact fun machine => Or.inl ⟨fault, machine, fails machine, deep _ kind⟩

theorem resembles_require {form other : Form} (name : form.name = other.name)
    {step another : Run (Option Value)}
    (resembles : Run.Resembles excused (fun _ => True) step another) (place elsewhere : Location) :
    Run.Resembles excused (fun _ => True) (require place form step)
      (require elsewhere other another) := by
  apply resembles.bind
  intro result _
  cases result with
  | some value => exact .pure trivial
  | none => exact .throw (name ▸ .error _ place elsewhere)

/-- A tree and the rewritten one, evaluated side by side, with the parts of a form at two depths. -/
def rewriting (s : Settings) (excused : Cause → Prop) (R : Rewriting) (depth lower : Nat) :
    Pairing s.tolerance Run Run where
  left := visitor s depth
  right := (visitor s lower).rewriting R
  together := Run.Resembles excused
  sound _ := True
  respects := s.respects_anything
  pure := .pure
  bind := .bind
  ofExcept computes := .ofExcept computes

theorem rewriting_admits (R : Rewriting) (place : Location) (form : Form) :
    (rewriting s excused R depth lower).Admits place form := by
  have own {α : Type} (step : Run α) :
      (rewriting s excused R depth lower).Does (fun _ => True) step := Run.Resembles.refl step
  cases form with
  | define name expr | assign name expr => exact ⟨own _, fun _ _ => own _⟩
  | print expr => exact fun _ _ => own _
  | number text | imaginary text | identifier name => exact own _
  | juxtaposition numeral constant names group parenthesized =>
      exact ⟨fun _ _ => own _, fun _ _ => own _⟩
  | call function arguments => exact fun _ _ => own _
  | atom => exact (own _).mono fun _ _ _ _ => trivial
  | _ => trivial

/-- A form is visited like the rewritten one if its parts are. -/
theorem resembles_visit (level : Excuses excused depth lower) {R : Rewriting} (place : Location)
    {form : Form}
    (parts : ∀ part ∈ form.parts, R.Preserves s excused (depth + 1) (lower + 1) part) :
    Run.Resembles excused (fun _ => True) (visit s depth (.mk place form))
      (visit s lower (R.node (.mk place form))) := by
  rw [visit, Rewriting.node, visit]
  apply resembles_enter level
  by_cases particular : form = .atom
  · subst particular
    exact .throw (.error _ _ _)
  · rw [dispatch_eq_perform, dispatch_eq_perform, Visitor.perform_rewriting,
      Visitor.perform_elsewhere _ particular _ (R.place place) place]
    have performs := (rewriting s excused R (depth + 1) (lower + 1)).together_perform place form
      (rewriting_admits R place form) fun part member =>
        ⟨(parts part member).visit.mono fun _ _ _ _ => trivial, (parts part member).evaluate⟩
    exact performs.mono fun _ _ => trivial

/-- A node that is its own core is evaluated like the rewritten one if it is visited like it. -/
theorem resembles_evaluate {R : Rewriting} {node : Node} (core : R.operand node = R.node node)
    (visits : Run.Resembles excused (fun _ => True) (visit s depth node)
      (visit s lower (R.node node))) :
    Run.Resembles excused (fun _ => True) (evaluate s depth node)
      (evaluate s lower (R.operand node)) := by
  rw [core, evaluate_eq_require, evaluate_eq_require]
  apply resembles_require _ visits
  cases node
  exact (R.name_form _).symm

end Eval

end Reckoner
