import Reckoner.Proofs.Discipline

set_option autoImplicit false

namespace Reckoner

mutual

/-- The complex numbers that occur in a value, in lists of any depth. -/
def Value.complexes : Value → List Complex
  | .complex z => [z]
  | .list elements => Value.complexesOf elements
  | .number _ | .boolean _ | .text _ => []

def Value.complexesOf : List Value → List Complex
  | [] => []
  | value :: rest => value.complexes ++ Value.complexesOf rest

end

theorem Value.complexesOf_eq_flatMap (elements : List Value) :
    complexesOf elements = elements.flatMap complexes := by
  induction elements with
  | nil => rfl
  | cons value rest ih => simp [complexesOf, ih]

def Value.AllComplexes (property : Complex → Prop) (v : Value) : Prop :=
  ∀ z ∈ v.complexes, property z

def Scope.AllComplexes (property : Complex → Prop) (scope : Scope) : Prop :=
  ∀ entry ∈ scope.bindings.entries, entry.2.AllComplexes property

theorem Value.AllComplexes.list {property : Complex → Prop} {elements : List Value}
    (all : ∀ v ∈ elements, v.AllComplexes property) :
    (Value.list elements).AllComplexes property := by
  intro z member
  rw [complexes, complexesOf_eq_flatMap] at member
  obtain ⟨v, inside, occurs⟩ := List.mem_flatMap.mp member
  exact all v inside z occurs

theorem Value.AllComplexes.element {property : Complex → Prop} {elements : List Value}
    (all : (Value.list elements).AllComplexes property) {v : Value} (inside : v ∈ elements) :
    v.AllComplexes property := by
  intro z occurs
  apply all z
  rw [complexes, complexesOf_eq_flatMap]
  exact List.mem_flatMap_of_mem inside occurs

theorem Value.IsNumber.allComplexes {v : Value} (number : v.IsNumber) (property : Complex → Prop) :
    v.AllComplexes property := by
  obtain ⟨x, rfl⟩ := number
  intro z member
  cases member

/-- The imaginary part is there, and the real part is there or zero. -/
structure Tolerance.IsCanonical (t : Tolerance) (z : Complex) : Prop where
  im_ne_zero : ¬ (z.im == 0) = true
  im_not_within : ¬ z.im.abs ≤ t.bound
  re_zero_or_not_within : (z.re == 0) = true ∨ ¬ z.re.abs ≤ t.bound

instance (t : Tolerance) (z : Complex) : Decidable (t.IsCanonical z) :=
  decidable_of_iff
    (¬ (z.im == 0) = true ∧ ¬ z.im.abs ≤ t.bound ∧ ((z.re == 0) = true ∨ ¬ z.re.abs ≤ t.bound))
    ⟨fun ⟨im, outside, re⟩ => ⟨im, outside, re⟩, fun ⟨im, outside, re⟩ => ⟨im, outside, re⟩⟩

def Value.Canonical (t : Tolerance) (v : Value) : Prop :=
  ∀ z ∈ v.complexes, t.IsCanonical z

instance (t : Tolerance) (v : Value) : Decidable (v.Canonical t) :=
  inferInstanceAs (Decidable (∀ z ∈ v.complexes, t.IsCanonical z))

def Scope.Canonical (t : Tolerance) (scope : Scope) : Prop :=
  ∀ entry ∈ scope.bindings.entries, entry.2.Canonical t

instance (t : Tolerance) (scope : Scope) : Decidable (scope.Canonical t) :=
  inferInstanceAs (Decidable (∀ entry ∈ scope.bindings.entries, entry.2.Canonical t))

theorem Bindings.mem_of_get? {α : Type} {b : Bindings α} {name : String} {a : α}
    (found : b.get? name = some a) : ∃ entry ∈ b.entries, entry.2 = a := by
  obtain ⟨entry, first, rfl⟩ := Option.map_eq_some_iff.mp found
  exact ⟨entry, List.mem_of_find?_eq_some first, rfl⟩

theorem Bindings.eq_or_mem_of_mem_insert {α : Type} {b : Bindings α} {name : String} {a : α}
    {entry : String × α} (member : entry ∈ (b.insert name a).entries) :
    entry = (name, a) ∨ entry ∈ b.entries := by
  obtain ⟨entries⟩ := b
  change entry ∈ insertEntry name a entries at member
  induction entries with
  | nil => exact Or.inl (List.mem_singleton.mp member)
  | cons first rest ih =>
      simp only [insertEntry] at member
      split at member
      · rcases List.mem_cons.mp member with rfl | later
        · exact Or.inl rfl
        · exact Or.inr (List.mem_cons_of_mem _ later)
      · rcases List.mem_cons.mp member with rfl | later
        · exact Or.inr (List.mem_cons_self)
        · exact (ih later).imp_right (List.mem_cons_of_mem _)

namespace Scope.AllComplexes

variable {property : Complex → Prop} {scope : Scope}

theorem resolve? (all : scope.AllComplexes property) {name : String} {v : Value}
    (found : scope.resolve? name = some v) : v.AllComplexes property := by
  rcases Option.or_eq_some_iff.mp found with bound | ⟨_, constant⟩
  · obtain ⟨entry, member, rfl⟩ := Bindings.mem_of_get? bound
    exact all entry member
  · exact (Scope.constants_isNumber constant).allComplexes property

theorem bind (all : scope.AllComplexes property) (name : String) {v : Value}
    (value : v.AllComplexes property) : (scope.bind name v).AllComplexes property := by
  intro entry member
  rcases Bindings.eq_or_mem_of_mem_insert member with rfl | old
  · exact value
  · exact all entry old

end Scope.AllComplexes

/-- A number that is not zero after snapping is as it was, and outside the tolerance. -/
theorem Tolerance.snap_eq_zero_or_self (t : Tolerance) (x : Float) :
    t.snap x = 0 ∨ t.snap x = x ∧ ¬ x.abs ≤ t.bound := by
  unfold snap
  split
  · exact Or.inl rfl
  · rename_i outside
    exact Or.inr ⟨rfl, fun within => outside (decide_eq_true within)⟩

/-- Every complex result is brought to canonical form. -/
theorem Value.Canonical.collapse {t : Tolerance} (z : Complex) : (t.collapse z).Canonical t := by
  simp only [Tolerance.collapse]
  split
  · intro w member
    cases member
  · rename_i imaginary
    intro w member
    rw [complexes, List.mem_singleton] at member
    subst member
    rcases t.snap_eq_zero_or_self z.im with zero | ⟨im, outside⟩
    · rw [zero] at imaginary
      exact absurd rfl imaginary
    · refine ⟨imaginary, by rwa [im], ?_⟩
      rcases t.snap_eq_zero_or_self z.re with zero | ⟨re, apart⟩
      · refine Or.inl ?_
        dsimp only
        rw [zero]
        rfl
      · exact Or.inr (by rwa [re])

def canonicalForm (t : Tolerance) : Discipline t where
  invariant machine := machine.scope.Canonical t
  sound v := v.Canonical t
  fair _ := True
  number _ _ member := by cases member
  boolean _ _ member := by cases member
  text _ _ member := by cases member
  list _ := Value.AllComplexes.list
  collapse := Value.Canonical.collapse
  resolve _ _ _ canonical := Scope.AllComplexes.resolve? canonical
  ordinary _ _ := trivial
  moved _ _ _ _ := trivial

theorem canonicalForm_admits (t : Tolerance) (form : Form) : (canonicalForm t).Admits form where
  define name _ _ _ value :=
    (canonicalForm t).keeps_define fun _ canonical _ => Scope.AllComplexes.bind canonical name value
  assign name _ _ _ value :=
    (canonicalForm t).keeps_assign fun _ canonical _ => Scope.AllComplexes.bind canonical name value
  print _ _ _ _ canonical := ⟨trivial, canonical⟩
  numeral _ _ _ _ := trivial
  call _ _ _ _ _ _ _ _ := trivial

/-- The value of the result, if there is one, and the values of all variables are canonical. -/
def Outcome.Canonical {ε α : Type} (t : Tolerance) (value? : α → Option Value)
    (outcome : Outcome ε α) : Prop :=
  (∀ a, outcome.result = .ok a → ∀ v, value? a = some v → v.Canonical t) ∧
    outcome.session.scope.Canonical t

theorem Session.visit_canonical (session : Session) (node : Node)
    (start : session.scope.Canonical session.settings.tolerance) :
    (session.visit node).Canonical session.settings.tolerance id := by
  have kept := session.visit_keeps (canonicalForm _) node
    (fun inner _ => canonicalForm_admits _ inner.form)
    (fun _ _ _ => ⟨fun _ => trivial, fun _ => trivial⟩) start
  exact ⟨kept.1, kept.2.2⟩

theorem Session.evaluate_canonical (session : Session) (node : Node)
    (start : session.scope.Canonical session.settings.tolerance) :
    (session.evaluate node).Canonical session.settings.tolerance some := by
  have kept := session.evaluate_keeps (canonicalForm _) node
    (fun inner _ => canonicalForm_admits _ inner.form)
    (fun _ _ _ => ⟨fun _ => trivial, fun _ => trivial⟩) start
  refine ⟨?_, kept.2.2⟩
  rintro v success _ ⟨⟩
  exact kept.1 v success

/-- Canonical form is an invariant: from canonical variables every step of a session leads to
canonical results and variables, for every tolerance and whatever tree it works on. -/
theorem step_canonical (session : Session) (node : Node)
    (start : session.scope.Canonical session.settings.tolerance) :
    (session.visit node).Canonical session.settings.tolerance id ∧
      (session.evaluate node).Canonical session.settings.tolerance some ∧
      (session.run node).Canonical session.settings.tolerance id := by
  refine ⟨session.visit_canonical node start, session.evaluate_canonical node start, ?_⟩
  have visit := session.reset.visit_canonical node start
  exact ⟨fun result success => visit.1 result (Session.run_eq_ok.mp success), visit.2⟩

/-- `z = [z, 1i]; ?` under the tolerance one half: the assignment stands though the program fails.
-/
theorem step_canonical_failing :
    let half : Tolerance := ⟨0.5⟩
    let session : Session := .fresh ⟨⟨half, 500⟩, 2000⟩
      ⟨⟨[("z", .list [.complex ⟨0, 1⟩, .complex ⟨3, -4⟩])]⟩⟩
    let here := Node.mk Location.unknown
    let program := here (.program
      [here (.assign "z" (here (.expressionList [here (.identifier "z"), here (.imaginary "1i")]))),
        here (.misplaced "?")])
    session.scope.Canonical half ∧
      (session.visit program).Canonical half id ∧ (session.evaluate program).Canonical half some ∧
      (session.run program).Canonical half id :=
  ⟨by decide +kernel, step_canonical _ _ (by decide +kernel)⟩

end Reckoner
