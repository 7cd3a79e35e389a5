import Reckoner.Proofs.Discipline
import Reckoner.Proofs.Range

set_option autoImplicit false

namespace Reckoner

def Settled {α : Type} (result : Except Fault α) : Prop :=
  (∃ a, result = .ok a) ∨ ∃ e, result = .error (.error e)

theorem Computes.settled {α : Type} {good : α → Prop} {regular : Prop} {result : Except Fault α}
    (computes : Computes good (Fault.Ordinary regular) result) (circumstances : regular) :
    Settled result := by
  cases result with
  | ok a => exact Or.inl ⟨a, rfl⟩
  | error fault =>
      cases fault with
      | error e => exact Or.inr ⟨e, rfl⟩
      | breakdown b => exact absurd circumstances computes.2

/-- An integer numeral with a mark, whose value has no nearest double. -/
def Numeral.Oversized (text : String) : Prop :=
  ∃ base rest n, splitMark? text.toList = some (base, rest) ∧ readInteger base rest = some n ∧
    Number.overflowThreshold ≤ n.natAbs

/-- Reading overflows at exactly the numerals that are too large. -/
theorem Literal.number_eq_overflow_iff {text : String} :
    number text = .error (.breakdown .overflow) ↔ Numeral.Oversized text := by
  constructor
  · intro failed
    unfold number Numeral.read at failed
    cases split : Numeral.splitMark? text.toList with
    | none =>
        rw [split] at failed
        cases read : Numeral.readFloat text <;> simp [read, Fault.ofCause] at failed
    | some marked =>
        obtain ⟨base, rest⟩ := marked
        rw [split] at failed
        cases read : Numeral.readInteger base rest with
        | none => simp [read, Fault.ofCause] at failed
        | some n =>
            cases nearest : Number.ofInt? n with
            | none => exact ⟨base, rest, n, split, read, Number.ofInt?_eq_none_iff.mp nearest⟩
            | some x => simp [read, nearest] at failed
  · rintro ⟨base, rest, n, split, read, large⟩
    have none := Number.ofInt?_eq_none_iff.mpr large
    simp only [number, Numeral.read, split, read, none, Option.elim]

/-- The hexadecimal numeral of `2 ^ 1024`. -/
theorem Numeral.exists_oversized : ∃ text, Oversized text := by
  refine ⟨String.ofList ('0' :: 'x' :: '1' :: List.replicate 256 '0'), .hexadecimal,
    '1' :: List.replicate 256 '0', (1 <<< 1024 : Nat), ?_, ?_, ?_⟩
  · rw [String.toList_ofList]
    rfl
  · decide +kernel
  · decide +kernel

namespace Node

def HasOversized (tree : Node) : Prop :=
  ∃ inner ∈ tree.nodes, ∃ text, inner.form.numeral? = some text ∧ Numeral.Oversized text

def Calls (tree : Node) (function : String) : Prop :=
  ∃ inner ∈ tree.nodes, ∃ arguments, inner.form = .call function arguments

end Node

/-- Under its circumstances an ordinary fault is not reported as an internal error. -/
theorem Fault.Ordinary.kind_ne_evaluation {regular : Prop} {fault : Fault}
    (ordinary : fault.Ordinary regular) (circumstances : regular) :
    fault.toError.cause.kind ≠ .evaluation := by
  cases fault with
  | error e => exact (Fault.ordinary_error_iff.mp ordinary).2.kind_ne.2
  | breakdown b => exact absurd circumstances ordinary.2

/-- The discipline of accounting for internal errors by a numeral of the tree. -/
def safety {t : Tolerance} (nonnegative : 0 ≤ t.bound) (tree : Node) : Discipline t :=
  .indifferent t (fun _ => True) (fun cause => cause.kind = .evaluation → tree.HasOversized)
    fun _ ordinary internal => absurd internal (ordinary.kind_ne_evaluation nonnegative)

theorem safety_admits {t : Tolerance} (nonnegative : 0 ≤ t.bound) {tree inner : Node}
    (inside : inner ∈ tree.nodes) (platform : tree.Calls "log" → LogVanishesOnlyAtOne) :
    (safety nonnegative tree).Admits inner.form where
  define _ _ _ _ _ := (safety nonnegative tree).keeps_define fun _ _ _ => trivial
  assign _ _ _ _ _ := (safety nonnegative tree).keeps_assign fun _ _ _ => trivial
  print _ _ _ _ _ := ⟨trivial, trivial⟩
  numeral text present fault failed := by
    rcases (Literal.number_computes text).error_fair failed with rfl | rfl
    · intro internal
      cases internal
    · intro _
      exact ⟨inner, inside, text, present, Literal.number_eq_overflow_iff.mp failed⟩
  call function arguments same f known vs fault failed := by
    have ordinary := (Builtin.apply_computes t f vs).error_fair failed
    intro internal
    refine absurd internal (ordinary.kind_ne_evaluation ?_)
    rintro rfl
    rw [Builtin.ofName?_eq_some.mp known] at same
    exact platform ⟨inner, inside, arguments, same⟩

/-- An internal error of a run is due to a numeral. -/
theorem run_evaluation_error {session : Session}
    (nonnegative : 0 ≤ session.settings.tolerance.bound) {program : Node}
    (platform : program.Calls "log" → LogVanishesOnlyAtOne) {e : Error}
    (failed : (session.run program).result = .error e) (internal : e.cause.kind = .evaluation) :
    program.HasOversized := by
  have kept := session.reset.visit_keeps (safety nonnegative program) program
    (fun inner inside => safety_admits nonnegative inside platform)
    (fun _ _ _ => ⟨fun _ => nofun, fun _ => nofun⟩) trivial
  obtain ⟨fault, visited, rfl⟩ := Session.run_eq_error.mp failed
  exact kept.2.1 fault visited internal

/-- At a tolerance that is not negative every operation and every function settles, and the only
internal error of a run is that of a numeral beyond the range of doubles. The logarithm of the
platform is assumed to vanish only at one, and this matters only where `log` is called; that the
integers next to a double have a double themselves is not assumed. -/
theorem settled_of_nonnegative {t : Tolerance} (nonnegative : 0 ≤ t.bound) :
    (∀ a b, Settled (Arith.add t a b) ∧ Settled (Arith.subtract t a b) ∧
      Settled (Arith.multiply t a b) ∧ Settled (Arith.divide t a b) ∧
      Settled (Arith.modulo t a b) ∧ Settled (Arith.power t a b) ∧
      Settled (Arith.factorial t a) ∧ Settled (Arith.equals t a b) ∧
      ∀ operator, Settled (Arith.compareBy t operator a b)) ∧
    (∀ f arguments, (f = .log → LogVanishesOnlyAtOne) → Settled (Builtin.apply t f arguments)) ∧
    (∀ x b, Binary.ofFloat? x = some b →
      ∀ n ∈ [b.floor, b.floor + 1, b.ceil, b.nearestEven], (Number.ofInt? n).isSome = true) ∧
    ∀ (session : Session) program e, session.settings.tolerance = t →
      (program.Calls "log" → LogVanishesOnlyAtOne) → (session.run program).result = .error e →
      e.cause.kind = .evaluation → program.HasOversized := by
  refine ⟨fun a b => ⟨?_, ?_, ?_, ?_, ?_, ?_, ?_, ?_, ?_⟩, ?_, ?_, ?_⟩
  · exact (Arith.add_computes t True a b).settled trivial
  · exact (Arith.subtract_computes t True a b).settled trivial
  · exact (Arith.multiply_computes t True a b).settled trivial
  · exact (Arith.divide_computes t a b).settled nonnegative
  · exact (Arith.modulo_computes t a b).settled nonnegative
  · exact (Arith.power_computes t a b).settled nonnegative
  · exact (Arith.factorial_computes t True a).settled trivial
  · exact (Arith.equals_computes t True a b).settled trivial
  · intro operator
    exact (Arith.compareBy_computes t True operator a b).settled trivial
  · intro f arguments platform
    exact (Builtin.apply_computes t f arguments).settled platform
  · intro x b exact
    exact Binary.ofInt?_rounded_isSome exact
  · intro session program e same platform failed internal
    exact run_evaluation_error (same ▸ nonnegative) platform failed internal

/-- Even if nothing but zero counts as zero, `0 ^ -1` and the root of a negative number settle, and
the internal error of a numeral is accounted for. -/
theorem settled_of_nonnegative_zero :
    0 ≤ (⟨0⟩ : Tolerance).bound ∧
      Settled (Arith.power ⟨0⟩ (.number 0) (.number (-1))) ∧
      Settled (Builtin.apply ⟨0⟩ .sqrt [.number (-2)]) ∧
      ∃ text e, ((Session.fresh ⟨⟨⟨0⟩, 500⟩, 2000⟩ ⟨Bindings.empty⟩).run
          (Node.mk Location.unknown (.number text))).result = .error e ∧
        e.cause.kind = .evaluation ∧ (Node.mk Location.unknown (.number text)).HasOversized := by
  have nonnegative : 0 ≤ (⟨0⟩ : Tolerance).bound := by decide +kernel
  obtain ⟨arithmetic, functions, _, runs⟩ := settled_of_nonnegative nonnegative
  obtain ⟨text, oversized⟩ := Numeral.exists_oversized
  have overflow := Literal.number_eq_overflow_iff.mpr oversized
  have visited : Eval.visit ⟨⟨⟨0⟩, 500⟩, 2000⟩ 1 (Node.mk Location.unknown (.number text))
      ⟨⟨Bindings.empty⟩, []⟩ = .error (.breakdown .overflow) ⟨⟨Bindings.empty⟩, []⟩ := by
    rw [Eval.visit, Eval.dispatch, overflow]
    rfl
  have failed : ((Session.fresh ⟨⟨⟨0⟩, 500⟩, 2000⟩ ⟨Bindings.empty⟩).run
      (Node.mk Location.unknown (.number text))).result =
        .error ⟨.brokenDown .overflow, Location.unknown⟩ :=
    Session.run_eq_error.mpr ⟨_, Session.visit_result_of_error _ visited, rfl⟩
  have noLog : ¬ (Node.mk Location.unknown (.number text)).Calls "log" := by
    rintro ⟨inner, inside, arguments, same⟩
    simp only [Node.nodes_mk, Form.children, List.flatMap_nil, List.mem_singleton] at inside
    subst inside
    cases same
  exact ⟨nonnegative, (arithmetic _ _).2.2.2.2.2.1, functions _ _ (fun same => by cases same),
    text, _, failed, rfl, runs _ _ _ rfl (fun calls => absurd calls noLog) failed rfl⟩

end Reckoner
