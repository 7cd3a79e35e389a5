import Reckoner.Calculator
import Reckoner.Proofs.Canonical
import Reckoner.Proofs.Depth
import Reckoner.Proofs.Order

set_option autoImplicit false

/-!
The variables that a session starts with. Initial data is told real or complex by the standard
tolerance, whatever the tolerance of the calculator is; every step after that goes by the tolerance
of the calculator. Where the two differ, a complex number may be there that counts as real, and
stay, or one may be missing that does not.
-/

namespace Reckoner

namespace Datum

mutual

/-- The complex numbers that occur in data, in sequences of any depth. -/
def complexes : Datum → List Complex
  | .complex z => [z]
  | .list elements | .tuple elements => complexesOf elements
  | .value v => v.complexes
  | .integer _ | .float _ | .boolean _ | .text _ | .foreign _ => []

def complexesOf : List Datum → List Complex
  | [] => []
  | datum :: rest => datum.complexes ++ complexesOf rest

end

mutual

/-- Whether data consists of plain data alone, without values of the language. -/
def isPlain : Datum → Bool
  | .list elements | .tuple elements => arePlain elements
  | .value _ => false
  | .integer _ | .float _ | .boolean _ | .text _ | .complex _ | .foreign _ => true

def arePlain : List Datum → Bool
  | [] => true
  | datum :: rest => datum.isPlain && arePlain rest

end

/-- The complex numbers that stay complex: those with an imaginary part by the standard tolerance.
-/
def kept (zs : List Complex) : List Complex :=
  zs.filter fun z => !Tolerance.standard.isZero z.im

theorem complexes_complexToValue (z : Complex) : (complexToValue z).complexes = kept [z] := by
  unfold complexToValue
  split
  · rename_i zero
    simp [Value.complexes, kept, zero]
  · rename_i outside
    simp [Value.complexes, kept, outside]

theorem kept_append (zs ws : List Complex) : kept (zs ++ ws) = kept zs ++ kept ws :=
  List.filter_append zs ws

mutual

/-- Plain data keeps its complex numbers, in order, unless they count as real by the standard
tolerance. -/
theorem toValue_computes : (datum : Datum) → datum.isPlain = true →
    Computes (fun v => v.complexes = kept datum.complexes) (fun _ => True) datum.toValue
  | .complex z, _ => complexes_complexToValue z
  | .list elements, plain => (toValues_computes elements plain).bind fun _ same => same
  | .tuple elements, plain => (toValues_computes elements plain).bind fun _ same => same
  | .integer n, _ => by
      unfold toValue integerToValue
      split
      · exact Eq.refl _
      · trivial
  | .float _, _ | .boolean _, _ | .text _, _ => Eq.refl _
  | .foreign _, _ => trivial

theorem toValues_computes : (elements : List Datum) → arePlain elements = true →
    Computes (fun vs => Value.complexesOf vs = kept (complexesOf elements)) (fun _ => True)
      (toValues elements)
  | [], _ => rfl
  | datum :: rest, plain => by
      obtain ⟨plainFirst, plainRest⟩ := Bool.and_eq_true_iff.mp plain
      apply (toValue_computes datum plainFirst).bind
      intro v first
      apply (toValues_computes rest plainRest).bind
      intro vs later
      change v.complexes ++ Value.complexesOf vs = kept (datum.complexes ++ complexesOf rest)
      rw [first, later, kept_append]

end

end Datum

theorem Computes.mapM_forall₂ {α β : Type} {related : α → β → Prop} {fair : Fault → Prop}
    {f : α → Except Fault β} (items : List α)
    (computes : ∀ a ∈ items, Computes (related a) fair (f a)) :
    Computes (List.Forall₂ related items) fair (items.mapM f) := by
  induction items with
  | nil => exact List.Forall₂.nil
  | cons item rest ih =>
      rw [List.mapM_cons]
      apply (computes item List.mem_cons_self).bind
      intro b first
      apply (ih fun a inside => computes a (List.mem_cons_of_mem item inside)).bind
      intro bs later
      exact List.Forall₂.cons first later

def Scope.complexes (scope : Scope) : List Complex :=
  scope.bindings.entries.flatMap fun entry => entry.2.complexes

namespace Calculator

def complexes (calculator : Calculator) : List Complex :=
  calculator.initial.entries.flatMap fun entry => entry.2.complexes

def IsPlain (calculator : Calculator) : Prop :=
  ∀ entry ∈ calculator.initial.entries, entry.2.isPlain = true

/-- A variable stands for the data of its name if it has the complex numbers of the data that are
kept. -/
def StandsFor (datum : String × Datum) (entry : String × Value) : Prop :=
  entry.1 = datum.1 ∧ entry.2.complexes = Datum.kept datum.2.complexes

variable {calculator : Calculator} {stackLimit : Nat} {session : Session}

theorem start_standsFor (plain : calculator.IsPlain)
    (started : calculator.start stackLimit = .ok session) :
    session.settings = ⟨calculator.options, stackLimit⟩ ∧
      List.Forall₂ StandsFor calculator.initial.entries session.scope.bindings.entries := by
  have converts : Computes (List.Forall₂ StandsFor calculator.initial.entries) (fun _ => True)
      (calculator.initial.entries.mapM fun entry =>
        entry.2.toValue.map fun image => (entry.1, image)) := by
    apply Computes.mapM_forall₂
    intro entry inside
    apply (entry.2.toValue_computes (plain entry inside)).map
    intro v same
    exact ⟨rfl, same⟩
  have bindings : Computes (fun bound : Bindings Value =>
      List.Forall₂ StandsFor calculator.initial.entries bound.entries) (fun _ => True)
      (Datum.toBindings calculator.initial) := converts.bind fun _ related => related
  have starts : Computes
      (fun session : Session => session.settings = ⟨calculator.options, stackLimit⟩ ∧
        List.Forall₂ StandsFor calculator.initial.entries session.scope.bindings.entries)
      (fun _ => True) (calculator.start stackLimit) :=
    bindings.bind fun _ related => ⟨rfl, related⟩
  exact starts.ok_good started

/-- The complex numbers of the initial variables are those of the data that have an imaginary part
by the standard tolerance, in the same order. -/
theorem complexes_start (plain : calculator.IsPlain)
    (started : calculator.start stackLimit = .ok session) :
    session.scope.complexes = Datum.kept calculator.complexes := by
  obtain ⟨-, related⟩ := start_standsFor plain started
  unfold Scope.complexes complexes
  generalize calculator.initial.entries = data at related ⊢
  generalize session.scope.bindings.entries = entries at related ⊢
  induction related with
  | nil => rfl
  | cons standsFor _ ih =>
      rw [List.flatMap_cons, List.flatMap_cons, Datum.kept_append, standsFor.2, ih]

theorem mem_complexes_start (plain : calculator.IsPlain)
    (started : calculator.start stackLimit = .ok session) (z : Complex) :
    z ∈ session.scope.complexes ↔
      z ∈ calculator.complexes ∧ ¬ z.im.abs ≤ Tolerance.standard.bound := by
  rw [complexes_start plain started, Datum.kept, List.mem_filter]
  simp [Tolerance.isZero]

end Calculator

/-- The discipline of bringing forth no complex number but with an imaginary part, apart from those
that were there. -/
def imaginaryOrSeeded (t : Tolerance) (seeds : List Complex) : Discipline t where
  invariant machine := machine.scope.AllComplexes fun z => ¬ z.im.abs ≤ t.bound ∨ z ∈ seeds
  sound v := v.AllComplexes fun z => ¬ z.im.abs ≤ t.bound ∨ z ∈ seeds
  fair _ := True
  number _ _ member := by cases member
  boolean _ _ member := by cases member
  text _ _ member := by cases member
  list _ := Value.AllComplexes.list
  collapse z w member := Or.inl (Value.Canonical.collapse z w member).im_not_within
  resolve _ _ _ all := Scope.AllComplexes.resolve? all
  ordinary _ _ := trivial
  moved _ _ _ _ := trivial

theorem imaginaryOrSeeded_admits (t : Tolerance) (seeds : List Complex) (form : Form) :
    (imaginaryOrSeeded t seeds).Admits form where
  define name _ _ _ value :=
    (imaginaryOrSeeded t seeds).keeps_define fun _ all _ => Scope.AllComplexes.bind all name value
  assign name _ _ _ value :=
    (imaginaryOrSeeded t seeds).keeps_assign fun _ all _ => Scope.AllComplexes.bind all name value
  print _ _ _ _ all := ⟨trivial, all⟩
  numeral _ _ _ _ := trivial
  call _ _ _ _ _ _ _ _ := trivial

/-- All complex numbers in the value of the result, if there is one, and in the variables have the
property. -/
def Outcome.AllComplexes {ε α : Type} (property : Complex → Prop) (value? : α → Option Value)
    (outcome : Outcome ε α) : Prop :=
  (∀ a, outcome.result = .ok a → ∀ v, value? a = some v → v.AllComplexes property) ∧
    outcome.session.scope.AllComplexes property

theorem Outcome.AllComplexes.mono {ε α : Type} {property weaker : Complex → Prop}
    {value? : α → Option Value} {outcome : Outcome ε α} (weaken : ∀ z, property z → weaker z)
    (all : outcome.AllComplexes property value?) : outcome.AllComplexes weaker value? :=
  ⟨fun a success v found z occurs => weaken z (all.1 a success v found z occurs),
    fun entry member z occurs => weaken z (all.2 entry member z occurs)⟩

namespace Session

/-- All complex numbers that ever occur in the session have the property: in its variables after any
steps, and in what the next step gives. -/
def Throughout (session : Session) (property : Complex → Prop) : Prop :=
  ∀ history, (session.after history).scope.AllComplexes property ∧ ∀ node,
    ((session.after history).visit node).AllComplexes property id ∧
    ((session.after history).evaluate node).AllComplexes property some ∧
    ((session.after history).run node).AllComplexes property id

/-- Has an imaginary part by the tolerance of the session, or is one of the seeds. -/
def Expects (session : Session) (seeds : List Complex) (z : Complex) : Prop :=
  ¬ z.im.abs ≤ session.settings.tolerance.bound ∨ z ∈ seeds

variable {session : Session} {seeds : List Complex}

theorem visit_expects (start : session.scope.AllComplexes (session.Expects seeds)) (node : Node) :
    (session.visit node).AllComplexes (session.Expects seeds) id := by
  have kept := session.visit_keeps (imaginaryOrSeeded _ seeds) node
    (fun inner _ => imaginaryOrSeeded_admits _ seeds inner.form)
    (fun _ _ _ => ⟨fun _ => trivial, fun _ => trivial⟩) start
  exact ⟨kept.1, kept.2.2⟩

theorem evaluate_expects (start : session.scope.AllComplexes (session.Expects seeds))
    (node : Node) : (session.evaluate node).AllComplexes (session.Expects seeds) some := by
  have kept := session.evaluate_keeps (imaginaryOrSeeded _ seeds) node
    (fun inner _ => imaginaryOrSeeded_admits _ seeds inner.form)
    (fun _ _ _ => ⟨fun _ => trivial, fun _ => trivial⟩) start
  refine ⟨?_, kept.2.2⟩
  rintro v success _ ⟨⟩
  exact kept.1 v success

theorem run_expects (start : session.scope.AllComplexes (session.Expects seeds)) (node : Node) :
    (session.run node).AllComplexes (session.Expects seeds) id :=
  have visit := visit_expects (show session.reset.scope.AllComplexes _ from start) node
  ⟨fun result success => visit.1 result (run_eq_ok.mp success), visit.2⟩

theorem advance_expects (start : session.scope.AllComplexes (session.Expects seeds)) (step : Step) :
    (session.advance step).scope.AllComplexes (session.Expects seeds) := by
  cases step with
  | visit node => exact (visit_expects start node).2
  | evaluate node => exact (evaluate_expects start node).2
  | run node => exact (run_expects start node).2

theorem after_expects (start : session.scope.AllComplexes (session.Expects seeds))
    (history : List Step) :
    (session.after history).scope.AllComplexes (session.Expects seeds) := by
  induction history generalizing session with
  | nil => exact start
  | cons step rest ih =>
      have next := advance_expects start step
      have same : (session.advance step).Expects seeds = session.Expects seeds := by
        funext z
        unfold Expects
        rw [settings_advance]
      rw [← same] at next ⊢
      exact ih next

/-- Whatever complex numbers a session starts with, it brings forth no others than with an imaginary
part by its tolerance. -/
theorem throughout_expects (session : Session) :
    session.Throughout (session.Expects session.scope.complexes) := by
  intro history
  have start : session.scope.AllComplexes (session.Expects session.scope.complexes) :=
    fun entry member z occurs => Or.inr (List.mem_flatMap_of_mem member occurs)
  have reached := after_expects start history
  have same : (session.after history).Expects session.scope.complexes =
      session.Expects session.scope.complexes := by
    funext z
    unfold Expects
    rw [settings_after]
  refine ⟨reached, fun node => ?_⟩
  rw [← same] at reached ⊢
  exact ⟨visit_expects reached node, evaluate_expects reached node, run_expects reached node⟩

/-- No complex number is ever without an imaginary part exactly if none is at the start. -/
theorem throughout_iff :
    session.Throughout (fun z => ¬ z.im.abs ≤ session.settings.tolerance.bound) ↔
      ∀ z ∈ session.scope.complexes, ¬ z.im.abs ≤ session.settings.tolerance.bound := by
  constructor
  · intro throughout z occurs
    obtain ⟨entry, member, inside⟩ := List.mem_flatMap.mp occurs
    exact (throughout []).1 entry member z inside
  · intro start history
    have weaken : ∀ z, session.Expects session.scope.complexes z →
        ¬ z.im.abs ≤ session.settings.tolerance.bound := by
      rintro z (imaginary | seeded)
      · exact imaginary
      · exact start z seeded
    obtain ⟨reached, outcomes⟩ := session.throughout_expects history
    refine ⟨fun entry member z occurs => weaken z (reached entry member z occurs), fun node => ?_⟩
    obtain ⟨visit, evaluate, run⟩ := outcomes node
    exact ⟨visit.mono weaken, evaluate.mono weaken, run.mono weaken⟩

end Session

/-- Initial data is read with the standard tolerance and not with that of the calculator. So the
variables start, and a session goes on, without complex numbers that count as real exactly if no
complex number of the data lies within the tolerance and outside the standard one; and none that
has an imaginary part is lost exactly if none lies within the standard tolerance and outside the
tolerance. -/
theorem start_by_standard_tolerance {calculator : Calculator} {stackLimit : Nat} {session : Session}
    (plain : calculator.IsPlain) (started : calculator.start stackLimit = .ok session) :
    let bound := calculator.options.tolerance.bound
    List.Forall₂ Calculator.StandsFor calculator.initial.entries session.scope.bindings.entries ∧
    session.Throughout (fun z => ¬ z.im.abs ≤ bound ∨ z ∈ session.scope.complexes) ∧
    (session.Throughout (fun z => ¬ z.im.abs ≤ bound) ↔
      ∀ z ∈ calculator.complexes, z.im.abs ≤ bound → z.im.abs ≤ 1e-9) ∧
    ((∀ z ∈ calculator.complexes, ¬ z.im.abs ≤ bound → z ∈ session.scope.complexes) ↔
      ∀ z ∈ calculator.complexes, z.im.abs ≤ 1e-9 → z.im.abs ≤ bound) ∧
    (bound ≤ 1e-9 → session.Throughout fun z => ¬ z.im.abs ≤ bound) ∧
    (1e-9 ≤ bound → ∀ z ∈ calculator.complexes, ¬ z.im.abs ≤ bound → z ∈ session.scope.complexes)
    := by
  intro bound
  obtain ⟨settings, related⟩ := Calculator.start_standsFor plain started
  have members := Calculator.mem_complexes_start plain started
  have same : session.settings.tolerance.bound = bound := by rw [settings]
  have throughout : session.Throughout (fun z => ¬ z.im.abs ≤ bound) ↔
      ∀ z ∈ calculator.complexes, z.im.abs ≤ bound → z.im.abs ≤ 1e-9 := by
    rw [← same, Session.throughout_iff]
    constructor
    · intro outside z occurs within
      by_contra apart
      exact outside z ((members z).mpr ⟨occurs, apart⟩) within
    · intro standard z occurs within
      obtain ⟨given, apart⟩ := (members z).mp occurs
      exact apart (standard z given within)
  have lossless : (∀ z ∈ calculator.complexes, ¬ z.im.abs ≤ bound → z ∈ session.scope.complexes) ↔
      ∀ z ∈ calculator.complexes, z.im.abs ≤ 1e-9 → z.im.abs ≤ bound := by
    constructor
    · intro stays z given small
      by_contra outside
      exact ((members z).mp (stays z given outside)).2 small
    · intro within z given outside
      exact (members z).mpr ⟨given, fun small => outside (within z given small)⟩
  refine ⟨related, ?_, throughout, lossless, fun narrow => ?_, fun wide => ?_⟩
  · rw [← same]
    exact session.throughout_expects
  · exact throughout.mpr fun z _ within => Number.le_trans within narrow
  · exact lossless.mpr fun z _ small => Number.le_trans small wide

/-- Under the standard tolerance both halves hold. -/
theorem start_by_standard_tolerance_nested :
    let calculator : Calculator := ⟨.standard,
      ⟨[("z", .tuple [.complex ⟨3, 0.5⟩, .list [.complex ⟨1, 1e-10⟩, .integer 2]])]⟩⟩
    let session : Session := .fresh .standard
      ⟨⟨[("z", .list [.complex ⟨3, 0.5⟩, .list [.number 1, .number 2]])]⟩⟩
    calculator.IsPlain ∧ calculator.start = .ok session ∧
      session.Throughout (fun z => ¬ z.im.abs ≤ 1e-9) ∧
      ∀ z ∈ calculator.complexes, ¬ z.im.abs ≤ 1e-9 → z ∈ session.scope.complexes := by
  intro calculator session
  have plain : calculator.IsPlain := by
    intro entry member
    rw [List.mem_singleton.mp member]
    rfl
  have started : calculator.start = .ok session := rfl
  have reflexive : (1e-9 : Float) ≤ 1e-9 := by decide +kernel
  obtain ⟨-, -, -, -, narrow, wide⟩ := start_by_standard_tolerance plain started
  exact ⟨plain, started, narrow reflexive, wide reflexive⟩

/-- Under the tolerance one half `0.1i` is a complex number, as a variable and as a result, and
under the tolerance zero `1e-10i` is a real one. -/
theorem start_ignores_own_tolerance :
    let half : Calculator := ⟨⟨⟨0.5⟩, 500⟩, ⟨[("z", .complex ⟨0, 0.1⟩)]⟩⟩
    let exact : Calculator := ⟨⟨⟨0⟩, 500⟩, ⟨[("z", .complex ⟨0, 1e-10⟩)]⟩⟩
    let negligible : Session :=
      .fresh ⟨half.options, Settings.standardStack⟩ ⟨⟨[("z", .complex ⟨0, 0.1⟩)]⟩⟩
    half.start = .ok negligible ∧ (0.1 : Float).abs ≤ 0.5 ∧
      (negligible.run ⟨Location.unknown, .identifier "z"⟩).result =
        .ok (some (.complex ⟨0, 0.1⟩)) ∧
      exact.start = .ok
        (.fresh ⟨exact.options, Settings.standardStack⟩ ⟨⟨[("z", .number 0)]⟩⟩) ∧
      ¬ (1e-10 : Float).abs ≤ 0 :=
  ⟨rfl, by decide +kernel, rfl, rfl, by decide +kernel⟩

end Reckoner
