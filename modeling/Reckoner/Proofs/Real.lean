import Reckoner.Proofs.Canonical
import Reckoner.Proofs.Null
import Reckoner.Proofs.Safety

set_option autoImplicit false

/-!
Programs without imaginary numbers. Real numbers are added, multiplied and divided as complex ones,
so a result is real only if its imaginary part vanishes. That of a sum always does. That of a
product or quotient does as long as both operands are finite; otherwise it is NaN, and the result is
a complex number. This is all that can happen: an imaginary part other than zero or NaN never arises
from real numbers, without a square root.
-/

namespace Reckoner

open Number (IsNull)

namespace Tolerance

variable (t : Tolerance)

/-- Zero and NaN are what they are under every tolerance. -/
theorem isNull_snap {finite : Bool} {x : Float} (null : IsNull finite x) :
    IsNull finite (t.snap x) := by
  unfold snap
  split
  · rename_i within
    cases finite with
    | true => exact Number.isNull_zero
    | false =>
        have nan : x.abs.isNaN = true := by rw [Number.isNaN_abs, null.isNaN]; rfl
        exact absurd (of_decide_eq_true within) (Number.not_le_of_isNaN nan t.bound)
  · exact null

/-- A number without an imaginary part is real; NaN is no imaginary part that counts as none. -/
theorem collapse_of_isNull {finite : Bool} {z : Complex} (null : IsNull finite z.im) :
    t.collapse z =
      if finite then .number (t.snap z.re) else .complex ⟨t.snap z.re, t.snap z.im⟩ := by
  simp only [collapse, (t.isNull_snap null).beq_zero]

theorem collapse_isNumber_iff {finite : Bool} {z : Complex} (null : IsNull finite z.im) :
    (t.collapse z).IsNumber ↔ finite = true := by
  rw [t.collapse_of_isNull null]
  cases finite with
  | true => exact ⟨fun _ => rfl, fun _ => ⟨_, rfl⟩⟩
  | false =>
      refine ⟨?_, nofun⟩
      rintro ⟨x, same⟩
      cases same

end Tolerance

/-- The imaginary part is zero or NaN. -/
def Complex.IsFlat (z : Complex) : Prop :=
  ∃ finite, IsNull finite z.im

namespace Complex

theorem isFlat_ofReal (x : Float) : (ofReal x).IsFlat :=
  ⟨true, Number.isNull_zero⟩

theorem isNull_add_ofReal (x y : Float) : IsNull true ((ofReal x).add (ofReal y)).im :=
  Number.isNull_zero.add Number.isNull_zero

theorem isNull_sub_ofReal (x y : Float) : IsNull true ((ofReal x).sub (ofReal y)).im :=
  Number.isNull_zero.sub Number.isNull_zero

theorem isNull_mul_ofReal (x y : Float) :
    IsNull (x.isFinite && y.isFinite) ((ofReal x).mul (ofReal y)).im :=
  (Number.isNull_zero.mul_left x).add (Number.isNull_zero.mul y)

theorem isNull_div_ofReal (x : Float) {y : Float}
    (nonzero : ¬ ((ofReal y).normSquare == 0) = true) :
    IsNull (x.isFinite && y.isFinite) ((ofReal x).div (ofReal y)).im := by
  have null := ((Number.isNull_zero.mul y).sub (Number.isNull_zero.mul_left x)).div
    (ofReal y).normSquare
  have flag : (((true && y.isFinite) && (true && x.isFinite)) &&
      Null.divides (ofReal y).normSquare.toModel.unpack) = (x.isFinite && y.isFinite) := by
    cases finite : y.isFinite with
    | true =>
        rw [Number.divides_of_ne_zero nonzero (Number.isNaN_normSquare_ofReal finite)]
        cases x.isFinite <;> rfl
    | false => cases x.isFinite <;> rfl
  rw [flag] at null
  exact null

namespace IsFlat

variable {a b : Complex}

theorem add (first : a.IsFlat) (second : b.IsFlat) : (a.add b).IsFlat := by
  obtain ⟨_, first⟩ := first
  obtain ⟨_, second⟩ := second
  exact ⟨_, first.add second⟩

theorem sub (first : a.IsFlat) (second : b.IsFlat) : (a.sub b).IsFlat := by
  obtain ⟨_, first⟩ := first
  obtain ⟨_, second⟩ := second
  exact ⟨_, first.sub second⟩

theorem mul (first : a.IsFlat) (second : b.IsFlat) : (a.mul b).IsFlat := by
  obtain ⟨_, first⟩ := first
  obtain ⟨_, second⟩ := second
  exact ⟨_, (second.mul_left a.re).add (first.mul b.re)⟩

theorem div (first : a.IsFlat) (second : b.IsFlat) : (a.div b).IsFlat := by
  obtain ⟨_, first⟩ := first
  obtain ⟨_, second⟩ := second
  exact ⟨_, ((first.mul b.re).sub (second.mul_left a.re)).div b.normSquare⟩

end IsFlat

end Complex

/-- The value contains no complex number, except with NaN in the place of an imaginary part. -/
def Value.RealOrNaN (v : Value) : Prop :=
  v.AllComplexes fun z => z.im.isNaN = true

def Scope.RealOrNaN (scope : Scope) : Prop :=
  scope.AllComplexes fun z => z.im.isNaN = true

theorem Complex.IsFlat.realOrNaN_collapse {z : Complex} (flat : z.IsFlat) (t : Tolerance) :
    (t.collapse z).RealOrNaN := by
  obtain ⟨finite, null⟩ := flat
  rw [t.collapse_of_isNull null]
  cases finite with
  | true => exact nofun
  | false =>
      intro w member
      obtain rfl := List.mem_singleton.mp member
      exact (t.isNull_snap null).isNaN

namespace Arith

variable {t : Tolerance}

/-- An operation whose values contain no proper complex numbers. -/
def GivesReal (result : Except Fault Value) : Prop :=
  Computes Value.RealOrNaN (fun _ => True) result

theorem toComplex_flat (operation : String) {v : Value} (real : v.RealOrNaN) :
    Computes Complex.IsFlat (fun _ => True) (toComplex operation v) := by
  cases v with
  | number x => exact Complex.isFlat_ofReal x
  | boolean b => exact Complex.isFlat_ofReal (indicator b)
  | complex z => exact ⟨false, Number.isNull_of_isNaN (real z (List.mem_singleton.mpr rfl))⟩
  | text s => trivial
  | list elements => trivial

/-- An operation on two operands as complex numbers. -/
theorem combine_givesReal (operation : String) {a b : Value} (realA : a.RealOrNaN)
    (realB : b.RealOrNaN) {combine : Complex → Complex → Except Fault Value}
    (gives : ∀ z w : Complex, z.IsFlat → w.IsFlat → GivesReal (combine z w)) :
    GivesReal (do
      let z ← toComplex operation a
      let w ← toComplex operation b
      combine z w) := by
  apply (toComplex_flat operation realA).bind
  intro z flatZ
  apply (toComplex_flat operation realB).bind
  intro w flatW
  exact gives z w flatZ flatW

theorem add_givesReal {a b : Value} (realA : a.RealOrNaN) (realB : b.RealOrNaN) :
    GivesReal (add t a b) :=
  combine_givesReal "addition" realA realB fun _ _ flatZ flatW =>
    (flatZ.add flatW).realOrNaN_collapse t

theorem subtract_givesReal {a b : Value} (realA : a.RealOrNaN) (realB : b.RealOrNaN) :
    GivesReal (subtract t a b) :=
  combine_givesReal "subtraction" realA realB fun _ _ flatZ flatW =>
    (flatZ.sub flatW).realOrNaN_collapse t

theorem multiply_givesReal {a b : Value} (realA : a.RealOrNaN) (realB : b.RealOrNaN) :
    GivesReal (multiply t a b) :=
  combine_givesReal "multiplication" realA realB fun _ _ flatZ flatW =>
    (flatZ.mul flatW).realOrNaN_collapse t

theorem divideComplex_givesReal {a b : Complex} (flatA : a.IsFlat) (flatB : b.IsFlat) :
    GivesReal (divideComplex t a b) := by
  unfold divideComplex
  split
  · trivial
  · split
    · trivial
    · exact (flatA.div flatB).realOrNaN_collapse t

theorem divide_givesReal {a b : Value} (realA : a.RealOrNaN) (realB : b.RealOrNaN) :
    GivesReal (divide t a b) :=
  combine_givesReal "division" realA realB fun _ _ => divideComplex_givesReal

theorem powerStep_flat {base power : Complex} (flatBase : base.IsFlat) (flat : power.IsFlat) :
    (powerStep t base power).IsFlat := by
  obtain ⟨finite, null⟩ := flat.mul flatBase
  unfold powerStep
  dsimp only
  split
  · exact ⟨true, Number.isNull_zero⟩
  · exact ⟨finite, t.isNull_snap null⟩

theorem naturalPower_flat {base : Complex} (flat : base.IsFlat) (n : Nat) :
    (naturalPower t base n).IsFlat := by
  unfold naturalPower
  induction n with
  | zero => exact Complex.isFlat_ofReal 1
  | succ n ih => exact powerStep_flat flat ih

theorem powerComplex_givesReal {base : Complex} (flat : base.IsFlat) (exponent : Float) :
    GivesReal (powerComplex t base exponent) := by
  unfold powerComplex
  split
  · rename_i n _
    have product := naturalPower_flat (t := t) flat n.natAbs
    dsimp only
    split
    · apply (divideComplex_givesReal (Complex.isFlat_ofReal 1) product).bind
      intro quotient real
      apply (toComplex_flat _ real).bind
      intro z flat
      exact flat.realOrNaN_collapse t
    · exact product.realOrNaN_collapse t
  · split
    · exact nofun
    · trivial

theorem power_givesReal {a b : Value} (realA : a.RealOrNaN) (realB : b.RealOrNaN) :
    GivesReal (power t a b) := by
  apply (toComplex_flat _ realB).bind
  intro e _
  split
  · apply (toComplex_flat _ realA).bind
    intro z flat
    exact powerComplex_givesReal flat e.re
  · trivial

theorem respects_realOrNaN (t : Tolerance) : Respects t Value.RealOrNaN where
  number _ := nofun
  boolean _ := nofun
  text _ := nofun
  list _ := Value.AllComplexes.list
  add realA realB success := (add_givesReal realA realB).ok_good success
  subtract realA realB success := (subtract_givesReal realA realB).ok_good success
  multiply realA realB success := (multiply_givesReal realA realB).ok_good success
  divide realA realB success := (divide_givesReal realA realB).ok_good success
  power realA realB success := (power_givesReal realA realB).ok_good success

/-- The sum of two numbers is a number, even if it is infinite or NaN. -/
theorem add_number (t : Tolerance) (x y : Float) :
    ∃ v, add t (.number x) (.number y) = .ok v ∧ v.IsNumber :=
  ⟨_, rfl, (t.collapse_isNumber_iff (Complex.isNull_add_ofReal x y)).mpr rfl⟩

theorem subtract_number (t : Tolerance) (x y : Float) :
    ∃ v, subtract t (.number x) (.number y) = .ok v ∧ v.IsNumber :=
  ⟨_, rfl, (t.collapse_isNumber_iff (Complex.isNull_sub_ofReal x y)).mpr rfl⟩

/-- The product of two numbers is a number exactly if both are finite. -/
theorem multiply_number (t : Tolerance) (x y : Float) :
    ∃ v, multiply t (.number x) (.number y) = .ok v ∧
      (v.IsNumber ↔ x.isFinite = true ∧ y.isFinite = true) := by
  refine ⟨_, rfl, (t.collapse_isNumber_iff (Complex.isNull_mul_ofReal x y)).trans ?_⟩
  exact Bool.and_eq_true_iff

/-- The quotient of two numbers, if there is one, is a number exactly if both are finite. -/
theorem divide_number {t : Tolerance} {x y : Float} {v : Value}
    (success : divide t (.number x) (.number y) = .ok v) :
    v.IsNumber ↔ x.isFinite = true ∧ y.isFinite = true := by
  change divideComplex t (.ofReal x) (.ofReal y) = .ok v at success
  unfold divideComplex at success
  split at success
  · cases success
  · split at success
    · cases success
    · rename_i nonzero
      cases success
      refine (t.collapse_isNumber_iff (Complex.isNull_div_ofReal x ?_)).trans Bool.and_eq_true_iff
      exact nonzero

end Arith

namespace Builtin

variable {t : Tolerance}

theorem operands_realOrNaN {arguments : List Value} (real : ∀ v ∈ arguments, v.RealOrNaN) :
    ∀ v ∈ operands arguments, v.RealOrNaN := by
  unfold operands
  split
  · rename_i elements
    intro v inside
    exact Value.AllComplexes.element (real (.list elements) (by simp)) inside
  · exact real

theorem sumOf_givesReal {arguments : List Value} (real : ∀ v ∈ arguments, v.RealOrNaN) :
    Arith.GivesReal (sumOf t arguments) := by
  refine Computes.foldlM (operands arguments) ?_ (Value.number 0) nofun
  intro sum item inside realSum
  exact Arith.add_givesReal realSum (operands_realOrNaN real item inside)

theorem bind_givesReal {α : Type} {first : Except Fault α} {next : α → Except Fault Value}
    (gives : ∀ a, Arith.GivesReal (next a)) : Arith.GivesReal (first >>= next) := by
  cases first with
  | ok a => exact gives a
  | error fault => trivial

/-- Only a square root leads from real numbers to imaginary ones. -/
theorem apply_givesReal {f : Builtin} (other : f ≠ .sqrt) {arguments : List Value}
    (real : ∀ v ∈ arguments, v.RealOrNaN) : Arith.GivesReal (f.apply t arguments) := by
  cases f with
  | sqrt => exact absurd rfl other
  | sum => exact sumOf_givesReal real
  | log =>
      exact (applyLog_computes t arguments).mono (fun _ number => number.allComplexes _)
        fun _ _ => trivial
  | min | max => exact bind_givesReal fun _ => nofun
  | _ => exact bind_givesReal fun _ => bind_givesReal fun _ => nofun

end Builtin

/-- The step leads from variables without proper complex numbers to such variables. -/
def Run.KeepsReal {α : Type} (good : α → Prop) (step : Run α) : Prop :=
  Run.Keeps (fun machine => machine.scope.RealOrNaN) (fun _ => True) good step

namespace Eval

variable {t : Tolerance} {stack : Nat} {limit : Int}

def staysReal (t : Tolerance) (stack : Nat) (limit : Int) : Lockstep t stack limit limit where
  together good step _ := Run.KeepsReal good step
  sound := Value.RealOrNaN
  respects := Arith.respects_realOrNaN t
  pure := Run.Keeps.pure
  bind := Run.Keeps.bind
  ofExcept computes :=
    Run.Keeps.ofExcept (computes.mono (fun _ good => good) fun _ _ => trivial)
  error _ _ := Run.Keeps.throw trivial

theorem staysReal_admits {form : Form} (noImaginary : ∀ text, form ≠ .imaginary text)
    (noRoot : ∀ arguments, form ≠ .call "sqrt" arguments) :
    (staysReal t stack limit).Admits form := by
  have has (name : String) : Run.KeepsReal (fun _ => True) (Run.hasVariable name) :=
    fun _ real => ⟨trivial, real⟩
  have lookup (name : String) : Run.KeepsReal Value.RealOrNaN (Run.lookup name) :=
    Run.Keeps.lookup True (fun _ _ => trivial) fun _ _ real => real.resolve?
  have number (text : String) :
      Run.KeepsReal (fun _ => True) (Run.ofExcept (Literal.number text)) :=
    Run.Keeps.ofExcept ((Literal.number_computes text).mono (fun _ _ => trivial) fun _ _ => trivial)
  cases form with
  | define name expr =>
      refine ⟨has name, fun v real => ?_⟩
      exact Run.Keeps.define True (fun _ _ => trivial) fun _ scope _ => scope.bind name real
  | assign name expr =>
      refine ⟨has name, fun v real => ?_⟩
      exact Run.Keeps.assign True (fun _ _ => trivial) fun _ scope _ => scope.bind name real
  | print expr => exact fun _ _ _ real => ⟨trivial, real⟩
  | number text => exact number text
  | imaginary text => exact absurd rfl (noImaginary text)
  | identifier name => exact lookup name
  | juxtaposition text constant names group parenthesized =>
      exact ⟨fun text _ => number text, fun name _ => lookup name⟩
  | call function arguments =>
      refine ⟨fun _ real => ⟨fun _ => real.resolve?, real⟩, ?_⟩
      intro f known vs real
      refine Run.Keeps.ofExcept (Builtin.apply_givesReal ?_ real)
      rintro rfl
      exact noRoot arguments (by rw [Builtin.ofName?_eq_some.mp known]; rfl)
  | _ => trivial

theorem staysReal_enters (depth : Nat) : (staysReal t stack limit).Enters depth := by
  apply (staysReal t stack limit).enters_of_within
  · intro place step _ keeps
    exact Run.Keeps.within keeps place fun _ _ => trivial
  · exact fun _ _ real => ⟨trivial, real⟩
  · exact fun _ _ real => ⟨trivial, real⟩

end Eval

namespace Node

def HasImaginary (tree : Node) : Prop :=
  ∃ inner ∈ tree.nodes, ∃ text, inner.form = .imaginary text

end Node

/-- From variables without complex numbers, a program without imaginary literals and square roots
leads to no complex number, in its result, in a list or in a variable, except with NaN in the place
of an imaginary part. Such a one arises where an operand is not finite: sums and differences of
numbers are numbers, and so are products and quotients of finite ones, but of no others. -/
theorem run_realOrNaN (session : Session) (program : Node) (real : session.scope.RealOrNaN)
    (noImaginary : ¬ program.HasImaginary) (noRoot : ¬ program.Calls "sqrt") :
    (∀ v, (session.run program).result = .ok (some v) → v.RealOrNaN) ∧
      (session.run program).session.scope.RealOrNaN ∧
      ∀ x y : Float, let t := session.settings.tolerance
        (∃ v, Arith.add t (.number x) (.number y) = .ok v ∧ v.IsNumber) ∧
        (∃ v, Arith.subtract t (.number x) (.number y) = .ok v ∧ v.IsNumber) ∧
        (∃ v, Arith.multiply t (.number x) (.number y) = .ok v ∧
          (v.IsNumber ↔ x.isFinite = true ∧ y.isFinite = true)) ∧
        ∀ v, Arith.divide t (.number x) (.number y) = .ok v →
          (v.IsNumber ↔ x.isFinite = true ∧ y.isFinite = true) := by
  have admits : ∀ inner ∈ program.nodes,
      (Eval.staysReal session.settings.tolerance session.settings.stackLimit
        session.settings.maxDepth).Admits inner.form :=
    fun inner inside => Eval.staysReal_admits
      (fun text same => noImaginary ⟨inner, inside, text, same⟩)
      fun arguments same => noRoot ⟨inner, inside, arguments, same⟩
  have visits := (Eval.staysReal _ _ _).together_visit program 1 admits
    fun reached _ _ => Eval.staysReal_enters reached
  have kept := session.reset.perform_keeps visits real
  have performs := session.reset.visit_eq program
  refine ⟨?_, ?_, fun x y => ⟨?_, ?_, ?_, ?_⟩⟩
  · intro v success
    have visited := Session.run_eq_ok.mp success
    rw [performs] at visited
    exact kept.1 (some v) visited v rfl
  · change (session.reset.visit program).session.scope.RealOrNaN
    rw [performs]
    exact kept.2.2
  · exact Arith.add_number _ x y
  · exact Arith.subtract_number _ x y
  · exact Arith.multiply_number _ x y
  · exact fun v => Arith.divide_number

/-- The square of an infinite variable is such a number. -/
theorem run_realOrNaN_infinite :
    let here := Node.mk Location.unknown
    let program := here (.define "y" (here (.term (here (.identifier "x")) "*"
      (here (.identifier "x")))))
    let session := Session.fresh .standard ⟨⟨[("x", .number Number.infinity)]⟩⟩
    session.scope.RealOrNaN ∧ ¬ program.HasImaginary ∧ ¬ program.Calls "sqrt" ∧
      (∀ v, (session.run program).result = .ok (some v) → v.RealOrNaN) ∧
      (session.run program).session.scope.RealOrNaN := by
  intro here program session
  have real : session.scope.RealOrNaN := by
    intro entry member z occurs
    obtain rfl := List.mem_singleton.mp member
    cases occurs
  have noImaginary : ¬ program.HasImaginary := by
    simp [program, here, Node.HasImaginary, Node.nodes_mk, Form.children, Node.form]
  have noRoot : ¬ program.Calls "sqrt" := by
    simp [program, here, Node.Calls, Node.nodes_mk, Form.children, Node.form]
  have stays := run_realOrNaN session program real noImaginary noRoot
  exact ⟨real, noImaginary, noRoot, stays.1, stays.2.1⟩

/-- The third power of `1e200` is a complex number, though nothing in the program is imaginary. -/
theorem power_overflow_not_real :
    let here := Node.mk Location.unknown
    let program := here (.power (here (.number "1e200")) (some (here (.number "3"))))
    let session := Session.fresh .standard ⟨.empty⟩
    0 ≤ session.settings.tolerance.bound ∧ session.scope.bindings.names = [] ∧
      ¬ program.HasImaginary ∧ ¬ program.Calls "sqrt" ∧
      ∃ v, (session.run program).result = .ok (some v) ∧
        v.complexes = [⟨Number.infinity, Number.nan⟩] := by
  intro here program session
  refine ⟨by decide +kernel, rfl, ?_, ?_, ?_⟩
  · simp [program, here, Node.HasImaginary, Node.nodes_mk, Form.children, Node.form]
  · simp [program, here, Node.Calls, Node.nodes_mk, Form.children, Node.form]
  · have computed : (session.run program).result.toOption.join.map Value.complexes =
        some [⟨Number.infinity, Number.nan⟩] := by decide +kernel
    obtain ⟨v, found, complexes⟩ := Option.map_eq_some_iff.mp computed
    refine ⟨v, ?_, complexes⟩
    cases outcome : (session.run program).result with
    | ok value =>
        rw [outcome] at found
        exact congrArg Except.ok found
    | error e =>
        rw [outcome] at found
        cases found

end Reckoner
