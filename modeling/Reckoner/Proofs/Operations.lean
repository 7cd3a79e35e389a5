import Reckoner.Arith.Comparison
import Reckoner.Builtin.Apply
import Reckoner.Literal
import Reckoner.Proofs.Number
import Reckoner.Scope

set_option autoImplicit false

namespace Reckoner

/-- A computation whose result is `good`, or whose fault is `fair`. -/
def Computes {α : Type} (good : α → Prop) (fair : Fault → Prop) : Except Fault α → Prop
  | .ok a => good a
  | .error fault => fair fault

/-- A cause that lies in the program, and neither in the limits of an evaluation nor below the
language. -/
def Cause.Ordinary : Cause → Prop
  | .tooDeep _ | .brokenDown _ => False
  | _ => True

/-- The faults of operations on values, which know no place. A division or a remainder may break
down, but not under `regular` circumstances. -/
def Fault.Ordinary (regular : Prop) : Fault → Prop
  | .error ⟨cause, ⟨none, none⟩⟩ => cause.Ordinary
  | .error _ => False
  | .breakdown b => (b = .divisionByZero ∨ b = .domain) ∧ ¬ regular

/-- Neither the limits of an evaluation nor anything below the language is reported. -/
theorem Cause.Ordinary.kind_ne {cause : Cause} (ordinary : cause.Ordinary) :
    cause.kind ≠ .tooDeep ∧ cause.kind ≠ .evaluation := by
  cases cause with
  | tooDeep limit => exact ordinary.elim
  | brokenDown b => exact ordinary.elim
  | _ => exact ⟨nofun, nofun⟩

theorem Fault.ordinary_error_iff {regular : Prop} {e : Error} :
    Fault.Ordinary regular (.error e) ↔ e.location = Location.unknown ∧ e.cause.Ordinary := by
  obtain ⟨cause, ⟨line, column⟩⟩ := e
  cases line <;> cases column <;> simp [Ordinary, Location.unknown]

theorem Fault.Ordinary.mono {regular stricter : Prop} (implies : stricter → regular)
    {fault : Fault} (ordinary : fault.Ordinary regular) : fault.Ordinary stricter := by
  cases fault with
  | error e => rwa [ordinary_error_iff] at ordinary ⊢
  | breakdown b => exact ⟨ordinary.1, fun strict => ordinary.2 (implies strict)⟩

namespace Computes

variable {α β : Type} {good : α → Prop} {better : β → Prop} {fair : Fault → Prop}

theorem bind {first : Except Fault α} {next : α → Except Fault β}
    (computes : Computes good fair first)
    (continues : ∀ a, good a → Computes better fair (next a)) :
    Computes better fair (first >>= next) := by
  cases first with
  | ok a => exact continues a computes
  | error fault => exact computes

theorem mono {weaker : α → Prop} {lenient : Fault → Prop} {result : Except Fault α}
    (computes : Computes good fair result) (weaken : ∀ a, good a → weaker a)
    (relax : ∀ fault, fair fault → lenient fault) : Computes weaker lenient result := by
  cases result with
  | ok a => exact weaken a computes
  | error fault => exact relax fault computes

theorem map {f : α → β} {result : Except Fault α} (computes : Computes good fair result)
    (maps : ∀ a, good a → better (f a)) : Computes better fair (result.map f) := by
  cases result with
  | ok a => exact maps a computes
  | error fault => exact computes

theorem ok_good {result : Except Fault α} {a : α} (computes : Computes good fair result)
    (success : result = .ok a) : good a := by
  subst success
  exact computes

theorem error_fair {result : Except Fault α} {fault : Fault} (computes : Computes good fair result)
    (failed : result = .error fault) : fair fault := by
  subst failed
  exact computes

theorem mapM {γ : Type} {f : γ → Except Fault α} (computes : ∀ c, Computes good fair (f c))
    (items : List γ) : Computes (fun as => ∀ a ∈ as, good a) fair (items.mapM f) := by
  induction items with
  | nil => simp [Computes, pure, Except.pure]
  | cons item rest ih =>
      rw [List.mapM_cons]
      apply (computes item).bind
      intro a first
      apply ih.bind
      intro as later
      simpa [Computes, pure, Except.pure] using ⟨first, later⟩

theorem foldlM {γ : Type} {f : α → γ → Except Fault α} (items : List γ)
    (computes : ∀ a, ∀ c ∈ items, good a → Computes good fair (f a c)) (start : α)
    (begins : good start) : Computes good fair (items.foldlM f start) := by
  induction items generalizing start with
  | nil => exact begins
  | cons item rest ih =>
      rw [List.foldlM_cons]
      apply (computes start item List.mem_cons_self begins).bind
      intro next good
      exact ih (fun a c member => computes a c (List.mem_cons_of_mem _ member)) next good

end Computes

/-- A value that an operation over the complex numbers gives. -/
def Value.IsCollapsed (t : Tolerance) (v : Value) : Prop := ∃ z, v = t.collapse z

/-- A value that an operation over the real numbers gives. -/
def Value.IsNumber (v : Value) : Prop := ∃ x, v = .number x

namespace Arith

variable (t : Tolerance) (regular : Prop)

theorem toComplex_computes (operation : String) (v : Value) :
    Computes (fun _ => True) (Fault.Ordinary regular) (toComplex operation v) := by
  cases v <;> trivial

theorem toReal_computes (operation : String) (v : Value) :
    Computes (fun _ => True) (Fault.Ordinary regular) (toReal t operation v) := by
  cases v with
  | complex z =>
      simp only [toReal]
      split <;> trivial
  | _ => trivial

theorem add_computes (left right : Value) :
    Computes (Value.IsCollapsed t) (Fault.Ordinary regular) (add t left right) := by
  apply (toComplex_computes regular _ left).bind
  intro a _
  apply (toComplex_computes regular _ right).bind
  intro b _
  exact ⟨a.add b, rfl⟩

theorem subtract_computes (left right : Value) :
    Computes (Value.IsCollapsed t) (Fault.Ordinary regular) (subtract t left right) := by
  apply (toComplex_computes regular _ left).bind
  intro a _
  apply (toComplex_computes regular _ right).bind
  intro b _
  exact ⟨a.sub b, rfl⟩

theorem multiply_computes (left right : Value) :
    Computes (Value.IsCollapsed t) (Fault.Ordinary regular) (multiply t left right) := by
  apply (toComplex_computes regular _ left).bind
  intro a _
  apply (toComplex_computes regular _ right).bind
  intro b _
  exact ⟨a.mul b, rfl⟩

/-- A divisor of squared magnitude zero counts as zero before the quotient is taken. -/
theorem divideComplex_computes (a b : Complex) :
    Computes (Value.IsCollapsed t) (Fault.Ordinary (0 ≤ t.bound)) (divideComplex t a b) := by
  unfold divideComplex
  split
  · trivial
  · rename_i distinct
    split
    · rename_i zero
      refine ⟨Or.inl rfl, fun nonnegative => distinct ?_⟩
      exact Tolerance.isZero_of_eq_zero nonnegative zero
    · exact ⟨a.div b, rfl⟩

theorem divide_computes (left right : Value) :
    Computes (Value.IsCollapsed t) (Fault.Ordinary (0 ≤ t.bound)) (divide t left right) := by
  apply (toComplex_computes _ _ left).bind
  intro a _
  apply (toComplex_computes _ _ right).bind
  intro b _
  exact divideComplex_computes t a b

/-- Only an infinity has no remainder, and only by zero there is none; zero counts as zero before
the remainder is taken. -/
theorem remainder_computes {x y : Float} (finite : x.isFinite = true)
    (distinct : ¬ t.isZero y = true) :
    Computes (fun _ => True) (Fault.Ordinary (0 ≤ t.bound)) (Platform.remainder x y) := by
  unfold Platform.remainder
  split
  · rename_i exact
    split
    · rename_i empty
      refine ⟨Or.inr rfl, fun nonnegative => distinct ?_⟩
      exact Tolerance.isZero_of_eq_zero nonnegative (Number.eq_zero_of_mantissa exact empty)
    · trivial
  · trivial
  · rw [Number.isInf_eq_false_of_isFinite finite]
    trivial

theorem modulo_computes (left right : Value) :
    Computes Value.IsNumber (Fault.Ordinary (0 ≤ t.bound)) (modulo t left right) := by
  apply (toReal_computes t _ _ left).bind
  intro dividend _
  apply (toReal_computes t _ _ right).bind
  intro divisor _
  split
  · trivial
  · rename_i distinct
    split
    · rename_i finite
      apply (remainder_computes t finite distinct).bind
      intro x _
      exact ⟨x, rfl⟩
    · exact ⟨Number.nan, rfl⟩

theorem toComplex_collapse (operation : String) (z : Complex) :
    ∃ w, toComplex operation (t.collapse z) = .ok w := by
  simp only [Tolerance.collapse]
  split
  · exact ⟨_, rfl⟩
  · exact ⟨_, rfl⟩

theorem powerComplex_computes (base : Complex) (exponent : Float) :
    Computes (fun v => v.IsCollapsed t ∨ v.IsNumber) (Fault.Ordinary (0 ≤ t.bound))
      (powerComplex t base exponent) := by
  unfold powerComplex
  split
  · rename_i n _
    dsimp only
    split
    · -- The reciprocal comes out of the division in canonical form, so it is a number again.
      apply (divideComplex_computes t (.ofReal 1) _).bind
      intro quotient collapsed
      obtain ⟨z, rfl⟩ := collapsed
      obtain ⟨w, success⟩ := toComplex_collapse t "power" z
      rw [success]
      exact Or.inl ⟨w, rfl⟩
    · exact Or.inl ⟨_, rfl⟩
  · split
    · exact Or.inr ⟨_, rfl⟩
    · trivial

theorem power_computes (base exponent : Value) :
    Computes (fun v => v.IsCollapsed t ∨ v.IsNumber) (Fault.Ordinary (0 ≤ t.bound))
      (power t base exponent) := by
  apply (toComplex_computes _ _ exponent).bind
  intro e _
  split
  · apply (toComplex_computes _ _ base).bind
    intro b _
    exact powerComplex_computes t b e.re
  · trivial

theorem factorial_computes (operand : Value) :
    Computes Value.IsNumber (Fault.Ordinary regular) (factorial t operand) := by
  apply (toReal_computes t _ _ operand).bind
  intro x _
  split
  · split
    · trivial
    · exact ⟨_, rfl⟩
  · trivial

mutual

theorem equals_computes (left right : Value) :
    Computes (fun _ => True) (Fault.Ordinary regular) (equals t left right) := by
  cases left with
  | list lefts =>
      cases right with
      | list rights =>
          simp only [equals]
          split
          · exact equalElements_computes lefts rights
          · trivial
      | _ => trivial
  | _ =>
      cases right <;> trivial

theorem equalElements_computes (lefts rights : List Value) :
    Computes (fun _ => True) (Fault.Ordinary regular) (equalElements t lefts rights) := by
  cases lefts with
  | nil => trivial
  | cons left lefts =>
      cases rights with
      | nil => trivial
      | cons right rights =>
          simp only [equalElements]
          apply (equals_computes left right).bind
          intro same _
          split
          · exact equalElements_computes lefts rights
          · trivial

end

private theorem ordered_computes (test : Float → Float → Bool) (left right : Value) :
    Computes (fun _ => True) (Fault.Ordinary regular) (holds.ordered t left right test) := by
  apply (toReal_computes t regular _ left).bind
  intro a _
  exact (toReal_computes t regular _ right).bind fun b _ => trivial

theorem compareBy_computes (operator : String) (left right : Value) :
    Computes (fun _ => True) (Fault.Ordinary regular) (compareBy t operator left right) := by
  unfold compareBy
  split
  · rename_i relation _
    cases relation with
    | equal => exact equals_computes t regular left right
    | unequal => exact (equals_computes t regular left right).map fun _ _ => trivial
    | _ => exact ordered_computes t regular _ left right
  · trivial

end Arith

/-- What is assumed of the logarithm of the platform: it vanishes only at one. -/
def LogVanishesOnlyAtOne : Prop := ∀ x : Float, (x.log == 0) = true → (x == 1) = true

namespace Builtin

variable (t : Tolerance) (regular : Prop)

theorem singleArgument_computes (f : Builtin) (arguments : List Value) :
    Computes (fun _ => True) (Fault.Ordinary regular) (singleArgument f arguments) := by
  unfold singleArgument
  split <;> trivial

theorem realArgument_computes (f : Builtin) (arguments : List Value) :
    Computes (fun _ => True) (Fault.Ordinary regular) (realArgument t f arguments) := by
  apply (singleArgument_computes regular f arguments).bind
  intro v _
  exact Arith.toReal_computes t regular f.name v

theorem realOperands_computes (f : Builtin) (arguments : List Value) :
    Computes (fun _ => True) (Fault.Ordinary regular) (realOperands t f arguments) := by
  unfold realOperands
  split
  · trivial
  · exact (Computes.mapM (Arith.toReal_computes t regular f.name) (operands arguments)).mono
      (fun _ _ => trivial) (fun _ ordinary => ordinary)

theorem magnitude_computes (v : Value) :
    Computes (fun _ => True) (Fault.Ordinary regular) (magnitude t v) := by
  cases v with
  | complex z => trivial
  | _ =>
      simp only [magnitude]
      exact (Arith.toReal_computes t regular _ _).map fun _ _ => trivial

/-- The guard admits finite angles and NaN, so there is no fault of any kind. -/
theorem ofAngle_computes (fair : Fault → Prop) (f : Float → Float) (x : Float) :
    Computes (fun _ => True) fair (ofAngle f x) := by
  unfold ofAngle
  split
  · rename_i finite
    unfold Platform.ofAngle
    rw [Number.isInf_eq_false_of_isFinite finite]
    trivial
  · trivial

/-- The platform's exponential fails only where it is too large, and that is handled. -/
theorem exponential_computes (fair : Fault → Prop) (x : Float) :
    Computes (fun _ => True) fair (exponential x) := by
  unfold exponential Platform.exponential
  split
  · trivial
  · trivial
  · rename_i failed
    split at failed <;> cases failed

/-- The guards leave the positive numbers, so there is no fault of any kind. The result is zero only
at one. -/
theorem logarithm_computes (fair : Fault → Prop) (x : Float) :
    Computes (fun y => LogVanishesOnlyAtOne → (y == 0) = true → (x == 1) = true) fair
      (logarithm x) := by
  unfold logarithm
  split
  · intro _ zero
    exact absurd zero (by decide +kernel)
  · rename_i notNegative
    split
    · intro _ zero
      exact absurd zero (by decide +kernel)
    · rename_i notZero
      simp only [Bool.or_eq_true, decide_eq_true_eq, not_or] at notNegative
      unfold Platform.logarithm
      rw [if_neg]
      · exact fun vanishes zero => vanishes x zero
      · intro notPositive
        rcases (Number.le_iff_lt_or_eq x 0).mp notPositive with negative | zero
        · exact notNegative.2 negative
        · exact notZero zero

/-- The logarithm of an admitted base is not zero, so there is a quotient. -/
theorem applyLog_computes (arguments : List Value) :
    Computes Value.IsNumber (Fault.Ordinary LogVanishesOnlyAtOne) (applyLog t arguments) := by
  unfold applyLog
  split
  · apply (Arith.toReal_computes t _ _ _).bind
    intro x _
    exact (logarithm_computes _ x).bind fun y _ => ⟨y, rfl⟩
  · apply (Arith.toReal_computes t _ _ _).bind
    intro x _
    apply (Arith.toReal_computes t _ _ _).bind
    intro base _
    split
    · trivial
    · rename_i admitted
      simp only [Bool.or_eq_true, not_or] at admitted
      apply (logarithm_computes _ x).bind
      intro y _
      apply (logarithm_computes _ base).bind
      intro divisor vanishing
      unfold Platform.quotient
      split
      · rename_i zero
        exact ⟨Or.inl rfl, fun vanishes => admitted.2 (vanishing vanishes zero)⟩
      · exact ⟨_, rfl⟩
  · trivial

theorem sumOf_computes (arguments : List Value) :
    Computes (fun v => v.IsCollapsed t ∨ v.IsNumber) (Fault.Ordinary regular)
      (sumOf t arguments) := by
  refine Computes.foldlM (operands arguments) ?_ (Value.number 0) (Or.inr ⟨0, rfl⟩)
  intro sum item _ _
  exact (Arith.add_computes t regular sum item).mono (fun _ => Or.inl) (fun _ ordinary => ordinary)

/-- The root of a negative number is that of its magnitude, which is not negative. -/
theorem squareRoot_computes (fair : Fault → Prop) (x : Float) :
    Computes (fun v => v.IsCollapsed t ∨ v.IsNumber) fair (squareRoot t x) := by
  unfold squareRoot Platform.squareRoot
  split
  · rw [if_neg (Number.not_abs_lt_zero x)]
    exact Or.inl ⟨_, rfl⟩
  · exact Or.inr ⟨_, rfl⟩

theorem lengthOf_computes (v : Value) :
    Computes (fun _ => True) (Fault.Ordinary regular) (lengthOf v) := by
  cases v <;> trivial

private theorem real_computes (f : Builtin) (arguments : List Value)
    {g : Float → Except Fault Float}
    (computes : ∀ x, Computes (fun _ => True) (Fault.Ordinary regular) (g x)) :
    Computes (fun v => v.IsCollapsed t ∨ v.IsNumber) (Fault.Ordinary regular)
      (apply.real t f arguments g) := by
  apply (realArgument_computes t regular f arguments).bind
  intro x _
  exact (computes x).bind fun y _ => Or.inr ⟨y, rfl⟩

/-- A function gives a number, or, for roots and sums, a number in canonical form. Only a logarithm
to a base depends on the platform. -/
theorem apply_computes (f : Builtin) (arguments : List Value) :
    Computes (fun v => v.IsCollapsed t ∨ v.IsNumber)
      (Fault.Ordinary (f = .log → LogVanishesOnlyAtOne)) (f.apply t arguments) := by
  cases f with
  | abs =>
      apply (singleArgument_computes _ _ arguments).bind
      intro v _
      exact (magnitude_computes t _ v).bind fun x _ => Or.inr ⟨x, rfl⟩
  | sqrt =>
      apply (realArgument_computes t _ _ arguments).bind
      intro x _
      exact squareRoot_computes t _ x
  | log =>
      exact (applyLog_computes t arguments).mono (fun _ => Or.inr)
        fun _ => Fault.Ordinary.mono fun platform => platform rfl
  | min | max =>
      exact (realOperands_computes t _ _ arguments).bind fun xs _ => Or.inr ⟨_, rfl⟩
  | sum => exact sumOf_computes t _ arguments
  | len =>
      apply (singleArgument_computes _ _ arguments).bind
      intro v _
      exact (lengthOf_computes _ v).bind fun n _ => Or.inr ⟨_, rfl⟩
  | sin | cos | tan => exact real_computes t _ _ arguments (ofAngle_computes _ _)
  | exp => exact real_computes t _ _ arguments (exponential_computes _)
  | ceil | floor | round => exact real_computes t _ _ arguments fun _ => trivial

end Builtin

/-- A numeral is refused, or has no nearest double. -/
theorem Literal.number_computes (text : String) :
    Computes (fun _ => True)
      (fun fault => fault = .ofCause (.invalidNumeral text) ∨ fault = .breakdown .overflow)
      (number text) := by
  unfold number
  split
  · trivial
  · exact Or.inl rfl
  · exact Or.inr rfl

/-- A sign or nothing stands for one. -/
theorem Literal.factor_computes {fair : Fault → Prop} {text : String}
    (numeral : Computes (fun _ => True) fair (number text)) :
    Computes (fun _ => True) fair (factor text) := by
  unfold factor
  split
  · trivial
  · split
    · trivial
    · exact numeral

namespace Scope

theorem constants_isNumber {name : String} {v : Value} (found : constants.get? name = some v) :
    v.IsNumber := by
  have both : constants = ((Bindings.empty.insert "pi" (.number 3.141592653589793)).insert "e"
      (.number 2.718281828459045)) := rfl
  rw [both, Bindings.get?_insert, Bindings.get?_insert, Bindings.get?_empty] at found
  split at found
  · cases found
    exact ⟨_, rfl⟩
  · split at found
    · cases found
      exact ⟨_, rfl⟩
    · cases found

theorem lookupConstant_computes (regular : Prop) (text : String) :
    Computes Value.IsNumber (Fault.Ordinary regular) (lookupConstant text) := by
  unfold lookupConstant
  split
  · rename_i v found
    exact constants_isNumber found
  · trivial

theorem lookup_computes (regular : Prop) (scope : Scope) (name : String) :
    Computes (fun v => scope.resolve? name = some v) (Fault.Ordinary regular)
      (scope.lookup name) := by
  unfold lookup
  split
  · rename_i v found
    exact found
  · trivial

theorem define_computes (regular : Prop) (scope : Scope) (name : String) (v : Value) :
    Computes (fun after => scope.hasVariable name = false ∧ after = scope.bind name v)
      (Fault.Ordinary regular) (scope.define name v) := by
  unfold define
  split
  · trivial
  · rename_i unbound
    exact ⟨Bool.eq_false_iff.mpr unbound, rfl⟩

theorem assign_computes (regular : Prop) (scope : Scope) (name : String) (v : Value) :
    Computes (fun after => scope.hasVariable name = true ∧ after = scope.bind name v)
      (Fault.Ordinary regular) (scope.assign name v) := by
  unfold assign
  split
  · rename_i bound
    exact ⟨bound, rfl⟩
  · trivial

end Scope

end Reckoner
