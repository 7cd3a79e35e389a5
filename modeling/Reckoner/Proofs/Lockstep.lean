import Reckoner.Proofs.Operations
import Reckoner.Proofs.Visitor

set_option autoImplicit false

/-!
Evaluations in lockstep. Many statements about evaluations say that something holds of every step,
or of the same step in two evaluations, and that it carries over from the steps of a visit to the
visit. The case analysis over forms and the induction over trees that they need are done here, once:
whatever relates the single steps of two visitors, and is closed under doing one thing after the
other, relates what they make of a form; and so it relates two evaluations.
-/

namespace Reckoner

/-- A property of values that the operations of arithmetic keep. -/
structure Arith.Respects (t : Tolerance) (sound : Value → Prop) : Prop where
  number : ∀ x, sound (.number x)
  boolean : ∀ b, sound (.boolean b)
  text : ∀ s, sound (.text s)
  list : ∀ vs, (∀ v ∈ vs, sound v) → sound (.list vs)
  add : ∀ {a b v}, sound a → sound b → Arith.add t a b = .ok v → sound v
  subtract : ∀ {a b v}, sound a → sound b → Arith.subtract t a b = .ok v → sound v
  multiply : ∀ {a b v}, sound a → sound b → Arith.multiply t a b = .ok v → sound v
  divide : ∀ {a b v}, sound a → sound b → Arith.divide t a b = .ok v → sound v
  power : ∀ {a b v}, sound a → sound b → Arith.power t a b = .ok v → sound v

theorem Arith.Respects.always (t : Tolerance) : Respects t fun _ => True := by
  constructor <;> intros <;> trivial

/-- Nothing is asked of the values that arise. -/
theorem Settings.respects_anything (s : Settings) : Arith.Respects s.tolerance fun _ => True :=
  .always s.tolerance

theorem Arith.Respects.isNumber {t : Tolerance} {sound : Value → Prop} (respects : Respects t sound)
    {v : Value} (number : v.IsNumber) : sound v := by
  obtain ⟨x, rfl⟩ := number
  exact respects.number x

/-- Two visitors, and a way in which what they do goes together. -/
structure Pairing (t : Tolerance) (M N : Type → Type) [Monad M] [Monad N] where
  left : Visitor M
  right : Visitor N
  /-- The two computations go together, and a result that they come to is `good`. -/
  together {α : Type} (good : α → Prop) (x : M α) (y : N α) : Prop
  /-- What holds of every value that arises. -/
  sound : Value → Prop
  respects : Arith.Respects t sound
  pure {α : Type} {good : α → Prop} {a : α} : good a → together good (pure a) (pure a)
  bind {α β : Type} {good : α → Prop} {better : β → Prop} {x : M α} {y : N α} {f : α → M β}
    {g : α → N β} :
    together good x y → (∀ a, good a → together better (f a) (g a)) →
      together better (x >>= f) (y >>= g)
  ofExcept {α : Type} {good : α → Prop} {result : Except Fault α} :
    Computes good (Fault.Ordinary (0 ≤ t.bound)) result →
      together good (left.own (Run.ofExcept result)) (right.own (Run.ofExcept result))

namespace Pairing

variable {t : Tolerance} {M N : Type → Type} [Monad M] [Monad N] (P : Pairing t M N)

/-- A step of a form itself goes together with itself. -/
def Does {α : Type} (good : α → Prop) (step : Run α) : Prop :=
  P.together good (P.left.own step) (P.right.own step)

/-- What holds of the result of a visit, which may be the absence of a value. -/
def SoundResult (result : Option Value) : Prop :=
  ∀ v, result = some v → P.sound v

/-- The visits of a node go together, with and without insisting on a value. -/
structure Visits (node : Node) : Prop where
  visit : P.together P.SoundResult (P.left.visit node) (P.right.visit node)
  evaluate : P.together P.sound (P.left.evaluate node) (P.right.evaluate node)

/-- What is asked of a form at a place by itself: of the names, literals and functions that it
mentions. -/
def Admits (place : Location) : Form → Prop
  | .define name _ =>
    P.Does (fun _ => True) (Run.hasVariable name) ∧
      ∀ v, P.sound v → P.Does (fun _ => True) (Run.define name v)
  | .assign name _ =>
    P.Does (fun _ => True) (Run.hasVariable name) ∧
      ∀ v, P.sound v → P.Does (fun _ => True) (Run.assign name v)
  | .print _ => ∀ v, P.sound v → P.Does (fun _ => True) (Run.emit (Display.text t v))
  | .number text => P.Does (fun _ => True) (Run.ofExcept (Literal.number text))
  | .imaginary text => P.Does P.sound (Run.ofExcept (Literal.imaginary t text))
  | .identifier name => P.Does P.sound (Run.lookup name)
  | .juxtaposition number _ names _ _ =>
    (∀ text ∈ number, P.Does (fun _ => True) (Run.ofExcept (Literal.number text))) ∧
      ∀ name ∈ names, P.Does P.sound (Run.lookup name)
  | .call function _ =>
    ∀ vs, (∀ v ∈ vs, P.sound v) → P.Does P.sound (Eval.call t function vs)
  | .atom => P.Does P.SoundResult (throw (.error ⟨.unsupportedAtom, place⟩))
  | _ => True

theorem soundResult_none : P.SoundResult none := by
  intro v absent
  cases absent

theorem soundResult_some {v : Value} (sound : P.sound v) : P.SoundResult (some v) := by
  intro w same
  cases same
  exact sound

theorem soundResult_boolean (b : Bool) : P.SoundResult (some (.boolean b)) :=
  P.soundResult_some (P.respects.boolean b)

theorem soundResult_list {vs : List Value} (sound : ∀ v ∈ vs, P.sound v) :
    P.SoundResult (some (.list vs)) :=
  P.soundResult_some (P.respects.list vs sound)

/-- Failing for a reason that lies in the program. -/
theorem does_fail {α : Type} {good : α → Prop} {cause : Cause} (ordinary : cause.Ordinary) :
    P.Does good (Run.fail cause : Run α) := by
  have failing : Computes good (Fault.Ordinary (0 ≤ t.bound)) (.error (.ofCause cause)) := ordinary
  exact P.ofExcept failing

/-- An operation that computes a value, given what is known of its results and of its faults. -/
theorem does_operation {good : Value → Prop} {regular : Prop} {result : Except Fault Value}
    (computes : Computes good (Fault.Ordinary regular) result)
    (circumstances : 0 ≤ t.bound → regular) (keeps : ∀ v, result = .ok v → P.sound v) :
    P.Does P.sound (Run.ofExcept result) := by
  apply P.ofExcept
  cases outcome : result with
  | ok v => exact keeps v outcome
  | error fault => exact (computes.error_fair outcome).mono circumstances

theorem does_multiply {a b : Value} (soundA : P.sound a) (soundB : P.sound b) :
    P.Does P.sound (Run.ofExcept (Arith.multiply t a b)) :=
  P.does_operation (Arith.multiply_computes t True a b) (fun _ => trivial)
    fun _ success => P.respects.multiply soundA soundB success

theorem does_arith (operator : String) {a b : Value} (soundA : P.sound a) (soundB : P.sound b) :
    P.Does P.sound (Run.ofExcept (Eval.arith t operator a b)) := by
  unfold Eval.arith
  split
  · exact P.does_operation (Arith.add_computes t True a b) (fun _ => trivial)
      fun _ success => P.respects.add soundA soundB success
  · split
    · exact P.does_operation (Arith.subtract_computes t True a b) (fun _ => trivial)
        fun _ success => P.respects.subtract soundA soundB success
    · exact P.ofExcept trivial

theorem does_term (operator : String) {a b : Value} (soundA : P.sound a) (soundB : P.sound b) :
    P.Does P.sound (Run.ofExcept (Eval.term t operator a b)) := by
  unfold Eval.term
  split
  · exact P.does_multiply soundA soundB
  · split
    · exact P.does_operation (Arith.divide_computes t a b) id
        fun _ success => P.respects.divide soundA soundB success
    · split
      · exact P.does_operation (Arith.modulo_computes t a b) id
          fun _ success => P.respects.isNumber ((Arith.modulo_computes t a b).ok_good success)
      · exact P.ofExcept trivial

theorem does_lookupConstant (text : String) :
    P.Does P.sound (Run.ofExcept (Scope.lookupConstant text)) := by
  apply P.ofExcept
  exact (Scope.lookupConstant_computes (0 ≤ t.bound) text).mono (fun _ => P.respects.isNumber)
    (fun _ ordinary => ordinary)

theorem together_evaluateAll (nodes : List Node) (visits : ∀ node ∈ nodes, P.Visits node) :
    P.together (fun vs => ∀ v ∈ vs, P.sound v) (P.left.evaluateAll nodes)
      (P.right.evaluateAll nodes) := by
  induction nodes with
  | nil => exact P.pure (by simp)
  | cons node rest ih =>
      apply P.bind (visits node (by simp)).evaluate
      intro v first
      refine P.bind (ih fun later member => visits later (by simp [member])) fun vs others => ?_
      exact P.pure (by simpa using ⟨first, others⟩)

theorem together_visitAll (nodes : List Node) (visits : ∀ node ∈ nodes, P.Visits node)
    (last : Option Value) (sound : P.SoundResult last) :
    P.together P.SoundResult (P.left.visitAll last nodes) (P.right.visitAll last nodes) := by
  induction nodes generalizing last with
  | nil => exact P.pure sound
  | cons node rest ih =>
      apply P.bind (visits node (by simp)).visit
      intro result next
      exact ih (fun later member => visits later (by simp [member])) result next

theorem together_compareAll (links : List (String × Node))
    (visits : ∀ node ∈ links.map Prod.snd, P.Visits node) (left : Value) :
    P.together (fun _ => True) (P.left.compareAll t left links)
      (P.right.compareAll t left links) := by
  induction links generalizing left with
  | nil => exact P.pure trivial
  | cons link rest ih =>
      obtain ⟨operator, node⟩ := link
      apply P.bind (visits node (by simp)).evaluate
      intro right _
      have compares := Arith.compareBy_computes t (0 ≤ t.bound) operator left right
      apply P.bind (P.ofExcept compares)
      intro holds _
      cases holds with
      | false => exact P.pure trivial
      | true => exact ih (fun later member => visits later (by simp [member])) right

/-- The operands of an operation, from left to right. -/
theorem together_operands {first second : Node} (visitsFirst : P.Visits first)
    (visitsSecond : P.Visits second) {f : Value → Value → M (Option Value)}
    {g : Value → Value → N (Option Value)}
    (combines : ∀ a b, P.sound a → P.sound b → P.together P.SoundResult (f a b) (g a b)) :
    P.together P.SoundResult
      (do
        let a ← P.left.evaluate first
        let b ← P.left.evaluate second
        f a b)
      (do
        let a ← P.right.evaluate first
        let b ← P.right.evaluate second
        g a b) := by
  apply P.bind visitsFirst.evaluate
  intro a soundA
  apply P.bind visitsSecond.evaluate
  intro b soundB
  exact combines a b soundA soundB

variable [LawfulMonad M] [LawfulMonad N]

theorem together_map {α β : Type} {good : α → Prop} {better : β → Prop} {x : M α} {y : N α}
    {f : α → β} (steps : P.together good x y) (maps : ∀ a, good a → better (f a)) :
    P.together better (f <$> x) (f <$> y) := by
  rw [map_eq_pure_bind, map_eq_pure_bind]
  exact P.bind steps fun a holds => P.pure (maps a holds)

theorem together_some {x : M Value} {y : N Value} (steps : P.together P.sound x y) :
    P.together P.SoundResult (some <$> x) (some <$> y) :=
  P.together_map steps fun _ sound => P.soundResult_some sound

theorem together_factor {number : Option String} {names : List String} {parts : List Node}
    (literal : ∀ text ∈ number, P.Does (fun _ => True) (Run.ofExcept (Literal.number text)))
    (lookup : ∀ name ∈ names, P.Does P.sound (Run.lookup name))
    (visits : ∀ node ∈ parts, P.Visits node) {factor : Factor}
    (taken : factor.TakenFrom number names parts) :
    P.together P.sound (P.left.factor factor) (P.right.factor factor) := by
  cases factor with
  | numeral text => exact P.together_map (literal text taken) fun x _ => P.respects.number x
  | identifier name => exact lookup name taken
  | part node => exact (visits node taken).evaluate

/-- What goes together for the parts of a form, and for the form by itself, goes together for the
form. -/
theorem together_perform (place : Location) (form : Form) (admits : P.Admits place form)
    (parts : ∀ part ∈ form.parts, P.Visits part) :
    P.together P.SoundResult (P.left.perform t place form) (P.right.perform t place form) := by
  cases form with
  | program statements => exact P.together_visitAll statements parts none P.soundResult_none
  | statement body =>
      cases body with
      | none => exact P.pure P.soundResult_none
      | some body => exact (parts body (by simp [Form.parts, Form.children])).visit
  | define name expr =>
      apply P.bind admits.1
      intro bound _
      cases bound with
      | true => exact P.does_fail trivial
      | false =>
          refine P.bind (parts expr (by simp [Form.parts, Form.children])).evaluate
            fun v sound => ?_
          apply P.bind (admits.2 v sound)
          intro _ _
          exact P.pure (P.soundResult_some sound)
  | assign name expr =>
      apply P.bind admits.1
      intro bound _
      cases bound with
      | true =>
          refine P.bind (parts expr (by simp [Form.parts, Form.children])).evaluate
            fun v sound => ?_
          apply P.bind (admits.2 v sound)
          intro _ _
          exact P.pure (P.soundResult_some sound)
      | false => exact P.does_fail trivial
  | equation left right =>
      refine P.together_operands (parts left (by simp [Form.parts, Form.children]))
        (parts right (by simp [Form.parts, Form.children])) fun a b _ _ => ?_
      apply P.bind (P.ofExcept (Arith.equals_computes t _ a b))
      intro same _
      exact P.pure (P.soundResult_boolean same)
  | equationStatement equation => exact (parts equation (by simp [Form.parts, Form.children])).visit
  | print expr =>
      apply P.bind (parts expr (by simp [Form.parts, Form.children])).evaluate
      intro v sound
      apply P.bind (admits v sound)
      intro _ _
      exact P.pure (P.soundResult_some sound)
  | or left right =>
      apply P.bind (parts left (by simp [Form.parts, Form.children])).evaluate
      intro a _
      split
      · exact P.pure (P.soundResult_boolean true)
      · apply P.bind (parts right (by simp [Form.parts, Form.children])).evaluate
        intro b _
        exact P.pure (P.soundResult_boolean _)
  | and left right =>
      apply P.bind (parts left (by simp [Form.parts, Form.children])).evaluate
      intro a _
      split
      · apply P.bind (parts right (by simp [Form.parts, Form.children])).evaluate
        intro b _
        exact P.pure (P.soundResult_boolean _)
      · exact P.pure (P.soundResult_boolean false)
  | not operand =>
      apply P.bind (parts operand (by simp [Form.parts, Form.children])).visit
      intro result _
      exact P.pure (P.soundResult_boolean _)
  | comparison first rest =>
      have head := (parts first (by simp [Form.parts, Form.children])).evaluate
      cases rest with
      | nil => exact P.together_some head
      | cons link rest =>
          apply P.bind head
          intro left _
          refine P.bind (P.together_compareAll (link :: rest) (fun node member => parts node (by
            simp only [Form.parts, Form.children, List.mem_cons]
            exact Or.inr member)) left) fun holds _ => ?_
          exact P.pure (P.soundResult_boolean holds)
  | arith left operator right =>
      exact P.together_operands (parts left (by simp [Form.parts, Form.children]))
        (parts right (by simp [Form.parts, Form.children])) fun a b soundA soundB =>
          P.together_some (P.does_arith operator soundA soundB)
  | term left operator right =>
      exact P.together_operands (parts left (by simp [Form.parts, Form.children]))
        (parts right (by simp [Form.parts, Form.children])) fun a b soundA soundB =>
          P.together_some (P.does_term operator soundA soundB)
  | power base exponent =>
      have first := parts base (by simp [Form.parts, Form.children])
      cases exponent with
      | none => exact P.together_some first.evaluate
      | some exponent =>
          refine P.together_operands first (parts exponent (by simp [Form.parts, Form.children]))
            fun a b soundA soundB => P.together_some ?_
          exact P.does_operation (Arith.power_computes t a b) id
            fun _ success => P.respects.power soundA soundB success
  | unary operator operand =>
      have inner := (parts operand (by simp [Form.parts, Form.children])).evaluate
      cases operator with
      | none => exact P.together_some inner
      | some operator =>
          simp only [Visitor.perform]
          split
          · exact P.together_some inner
          · split
            · apply P.bind inner
              intro v sound
              exact P.together_some (P.does_multiply (P.respects.number _) sound)
            · exact P.does_fail trivial
  | number text =>
      apply P.bind admits
      intro x _
      exact P.pure (P.soundResult_some (P.respects.number x))
  | imaginary text => exact P.together_some admits
  | constant text => exact P.together_some (P.does_lookupConstant text)
  | identifier name => exact P.together_some admits
  | expressionStatement expr | paren expr | row expr =>
      exact P.together_some (parts expr (by simp [Form.parts, Form.children])).evaluate
  | factorial operand =>
      apply P.bind (parts operand (by simp [Form.parts, Form.children])).evaluate
      intro v _
      refine P.together_some (P.does_operation (Arith.factorial_computes t True v)
        (fun _ => trivial) fun _ success => ?_)
      exact P.respects.isNumber ((Arith.factorial_computes t True v).ok_good success)
  | juxtaposition number constant names group parenthesized =>
      simp only [Visitor.perform]
      split
      · rename_i left right factors
        obtain ⟨takenLeft, takenRight⟩ := Form.factors?_takenFrom factors
        apply P.bind (P.together_factor admits.1 admits.2 parts takenLeft)
        intro a soundA
        apply P.bind (P.together_factor admits.1 admits.2 parts takenRight)
        intro b soundB
        exact P.together_some (P.does_multiply soundA soundB)
      · exact P.does_fail trivial
  | call function arguments =>
      apply P.bind (P.together_evaluateAll arguments parts)
      intro vs sound
      exact P.together_some (admits vs sound)
  | argumentList items | expressionList items | matrix items =>
      apply P.bind (P.together_evaluateAll items parts)
      intro vs sound
      exact P.pure (P.soundResult_list sound)
  | vector items =>
      cases items with
      | none => exact P.pure (P.soundResult_list (by simp))
      | some items =>
          exact P.together_some
            (parts items (by simp [Form.parts, Form.children])).evaluate
  | terminal text => exact P.pure (P.soundResult_some (P.respects.text text))
  | misplaced text => exact P.does_fail trivial
  | blank => exact P.pure P.soundResult_none
  | atom => exact admits

end Pairing

/-- Two evaluations with the limits `m` and `n` on the same stack, and a way in which their steps go
together. -/
structure Lockstep (t : Tolerance) (stack : Nat) (m n : Int) where
  /-- The two steps go together, and a result that they come to is `good`. -/
  together {α : Type} (good : α → Prop) (left right : Run α) : Prop
  /-- What holds of every value that arises. -/
  sound : Value → Prop
  respects : Arith.Respects t sound
  pure {α : Type} {good : α → Prop} {a : α} : good a → together good (pure a) (pure a)
  bind {α β : Type} {good : α → Prop} {better : β → Prop} {left right : Run α} {f g : α → Run β} :
    together good left right → (∀ a, good a → together better (f a) (g a)) →
      together better (left >>= f) (right >>= g)
  ofExcept {α : Type} {good : α → Prop} {result : Except Fault α} :
    Computes good (Fault.Ordinary (0 ≤ t.bound)) result →
      together good (Run.ofExcept result) (Run.ofExcept result)
  error {α : Type} {good : α → Prop} {cause : Cause} (place : Location) :
    cause.Ordinary → together good (throw (.error ⟨cause, place⟩)) (throw (.error ⟨cause, place⟩))

namespace Lockstep

variable {t : Tolerance} {stack : Nat} {m n : Int} (L : Lockstep t stack m n)

def Does {α : Type} (good : α → Prop) (step : Run α) : Prop :=
  L.together good step step

def SoundResult (result : Option Value) : Prop :=
  ∀ v, result = some v → L.sound v

def Admits : Form → Prop
  | .define name _ =>
    L.Does (fun _ => True) (Run.hasVariable name) ∧
      ∀ v, L.sound v → L.Does (fun _ => True) (Run.define name v)
  | .assign name _ =>
    L.Does (fun _ => True) (Run.hasVariable name) ∧
      ∀ v, L.sound v → L.Does (fun _ => True) (Run.assign name v)
  | .print _ => ∀ v, L.sound v → L.Does (fun _ => True) (Run.emit (Display.text t v))
  | .number text => L.Does (fun _ => True) (Run.ofExcept (Literal.number text))
  | .imaginary text => L.Does L.sound (Run.ofExcept (Literal.imaginary t text))
  | .identifier name => L.Does L.sound (Run.lookup name)
  | .juxtaposition number _ names _ _ =>
    (∀ text ∈ number, L.Does (fun _ => True) (Run.ofExcept (Literal.number text))) ∧
      ∀ name ∈ names, L.Does L.sound (Run.lookup name)
  | .call function _ =>
    L.Does L.SoundResult (Run.resolve? function) ∧
      ∀ f, Builtin.ofName? function = some f → ∀ vs, (∀ v ∈ vs, L.sound v) →
        L.Does L.sound (Run.ofExcept (f.apply t vs))
  | _ => True

/-- Entering a node at a depth keeps steps together. -/
def Enters (depth : Nat) : Prop :=
  ∀ place left right, L.together L.SoundResult left right →
    L.together L.SoundResult (Eval.enter ⟨⟨t, m⟩, stack⟩ depth place left)
      (Eval.enter ⟨⟨t, n⟩, stack⟩ depth place right)

def Visits (depth : Nat) (node : Node) : Prop :=
  L.together L.SoundResult (Eval.visit ⟨⟨t, m⟩, stack⟩ depth node)
    (Eval.visit ⟨⟨t, n⟩, stack⟩ depth node)

theorem together_require {left right : Run (Option Value)} (place : Location) (form : Form)
    (steps : L.together L.SoundResult left right) :
    L.together L.sound (Eval.require place form left) (Eval.require place form right) := by
  apply L.bind steps
  intro result sound
  cases result with
  | none => exact L.error place trivial
  | some v => exact L.pure (sound v rfl)

theorem together_evaluate {depth : Nat} {node : Node} (visits : L.Visits depth node) :
    L.together L.sound (Eval.evaluate ⟨⟨t, m⟩, stack⟩ depth node)
      (Eval.evaluate ⟨⟨t, n⟩, stack⟩ depth node) := by
  rw [Eval.evaluate_eq_require, Eval.evaluate_eq_require]
  exact L.together_require node.location node.form visits

/-- The two evaluators, with the parts of a form at a depth. -/
def pairing (depth : Nat) : Pairing t Run Run where
  left := Eval.visitor ⟨⟨t, m⟩, stack⟩ depth
  right := Eval.visitor ⟨⟨t, n⟩, stack⟩ depth
  together := L.together
  sound := L.sound
  respects := L.respects
  pure := L.pure
  bind := L.bind
  ofExcept := L.ofExcept

theorem does_call {function : String} {arguments : List Node}
    (admits : L.Admits (.call function arguments)) {vs : List Value}
    (sound : ∀ v ∈ vs, L.sound v) : L.Does L.sound (Eval.call t function vs) := by
  unfold Eval.call
  split
  · rename_i f known
    exact admits.2 f known vs sound
  · apply L.bind admits.1
    intro result soundResult
    split
    · rename_i argument value
      exact (L.pairing 0).does_multiply (soundResult value rfl) (sound argument (by simp))
    · exact L.error Location.unknown trivial

theorem pairing_admits {form : Form} (admits : L.Admits form) (depth : Nat) (place : Location) :
    (L.pairing depth).Admits place form := by
  cases form with
  | call function arguments => exact fun vs sound => L.does_call admits sound
  | atom => exact L.error place trivial
  | _ => exact admits

/-- The constant of a juxtaposition is visited, though it is no node of the tree. -/
theorem visits_token {depth : Nat} (enters : L.Enters depth) (token : Token) :
    L.Visits depth token.node := by
  apply enters token.location
  exact (L.pairing depth).together_some ((L.pairing depth).does_lookupConstant token.text)

/-- What the parts of a form keep, and the form by itself, the form keeps. -/
theorem together_dispatch {depth : Nat} (place : Location) (form : Form) (admits : L.Admits form)
    (parts : ∀ child ∈ form.children, L.Visits depth child)
    (token : 0 < form.tokenHeight → L.Enters depth) :
    L.together L.SoundResult (Eval.dispatch ⟨⟨t, m⟩, stack⟩ depth place form)
      (Eval.dispatch ⟨⟨t, n⟩, stack⟩ depth place form) := by
  rw [Eval.dispatch_eq_perform, Eval.dispatch_eq_perform]
  apply (L.pairing depth).together_perform place form (L.pairing_admits admits depth place)
  intro part member
  have visits : L.Visits depth part := by
    rcases Form.child_or_token_of_mem_parts member with child | ⟨constant, present, rfl⟩
    · exact parts part child
    · exact L.visits_token (token present) constant
  exact ⟨visits, L.together_evaluate visits⟩

/-- With the same limit on both sides, a depth can be entered if going beyond it goes together with
itself. -/
theorem enters_of_within {limit : Int} (L : Lockstep t stack limit limit) {depth : Nat}
    (moves : ∀ place left right, L.together L.SoundResult left right →
      L.together L.SoundResult (Run.within place left) (Run.within place right))
    (deep : limit < depth → L.Does L.SoundResult (Run.fail (.tooDeep limit)))
    (exhausted : stack < depth →
      L.Does L.SoundResult (throw (.breakdown .stackExhausted))) : L.Enters depth := by
  intro place left right steps
  unfold Eval.enter
  apply moves
  by_cases beyond : limit < depth
  · rw [if_pos beyond, if_pos beyond]
    exact deep beyond
  rw [if_neg beyond, if_neg beyond]
  by_cases full : stack < depth
  · rw [if_pos full, if_pos full]
    exact exhausted full
  rw [if_neg full, if_neg full]
  exact steps

/-- The visits of a tree go together if its nodes are admitted, each by itself, and if every depth
that they reach can be entered. -/
theorem together_visit (node : Node) (depth : Nat)
    (admits : ∀ inner ∈ node.nodes, L.Admits inner.form)
    (enters : ∀ reached, depth ≤ reached → reached < depth + node.height → L.Enters reached) :
    L.Visits depth node := by
  induction node using Node.induct generalizing depth with
  | step place form ih =>
      have positive := (Node.mk place form).height_pos
      apply enters depth (Nat.le_refl _) (by omega)
      apply L.together_dispatch
      · exact admits _ (Node.self_mem_nodes _)
      · intro child part
        have lower := Node.height_child_lt place part
        apply ih child part
        · intro inner inside
          exact admits inner (Node.mem_nodes_of_child part inside)
        · intro reached above below
          exact enters reached (by omega) (by omega)
      · intro token
        have lower := Node.tokenHeight_lt_height place form
        exact enters (depth + 1) (by omega) (by omega)

end Lockstep

end Reckoner
