import Reckoner.Arith.Operations
import Reckoner.Proofs.Integers

set_option autoImplicit false

namespace Reckoner

namespace Tolerance

variable (t : Tolerance)

theorem snap_zero : t.snap 0 = 0 := by
  unfold snap
  split <;> rfl

theorem snap_snap (x : Float) : t.snap (t.snap x) = t.snap x := by
  by_cases zero : t.isZero x = true
  · rw [show t.snap x = 0 from if_pos zero, snap_zero]
  · rw [show t.snap x = x from if_neg zero, show t.snap x = x from if_neg zero]

/-- What an operation gives, as the complex number that another operation makes of it. -/
def settled (z : Complex) : Complex :=
  ⟨t.snap z.re, if t.snap z.im == 0 then 0 else t.snap z.im⟩

theorem toComplex_collapse_eq (operation : String) (z : Complex) :
    Arith.toComplex operation (t.collapse z) = .ok (t.settled z) := by
  simp only [collapse, settled]
  split <;> rfl

theorem collapse_settled (z : Complex) : t.collapse (t.settled z) = t.collapse z := by
  by_cases real : (t.snap z.im == 0) = true
  · simp only [collapse, settled, real, if_true, snap_snap, snap_zero]
    rfl
  · simp only [collapse, settled, if_neg real, snap_snap]

end Tolerance

namespace Arith

variable {t : Tolerance}

/-- A value is a number for all operations or for none. -/
theorem toComplex_of_ok {operation : String} {v : Value} {z : Complex}
    (number : toComplex operation v = .ok z) (other : String) : toComplex other v = .ok z := by
  cases v with
  | text | list => cases number
  | _ => exact number

/-- Each step of the loop is what one operation after the other does. -/
theorem naturalPower_succ (t : Tolerance) (base : Complex) (n : Nat) :
    naturalPower t base (n + 1) = t.settled ((naturalPower t base n).mul base) :=
  rfl

/-- A power that is a product is what an operation makes of it. -/
theorem toComplex_naturalPower (operation : String) (base : Complex) {n : Nat} (positive : 0 < n) :
    toComplex operation (t.collapse (naturalPower t base n)) = .ok (naturalPower t base n) := by
  obtain ⟨n, rfl⟩ := Nat.exists_eq_add_of_lt positive
  rw [Nat.zero_add, naturalPower_succ, t.collapse_settled, t.toComplex_collapse_eq]

def integerPower (t : Tolerance) (base : Complex) (n : Int) : Except Fault Value :=
  if n < 0 then divideComplex t (.ofReal 1) (naturalPower t base n.natAbs)
  else .ok (t.collapse (naturalPower t base n.natAbs))

/-- A quotient is in canonical form already. -/
theorem collapse_divideComplex (t : Tolerance) (operation : String) (a b : Complex) :
    (do
      let quotient ← divideComplex t a b
      return t.collapse (← toComplex operation quotient)) = divideComplex t a b := by
  unfold divideComplex
  split
  · rfl
  · split
    · rfl
    · change (do return t.collapse (← toComplex operation (t.collapse (a.div b)))) = _
      rw [t.toComplex_collapse_eq]
      exact congrArg Except.ok (t.collapse_settled _)

/-- The exponent is looked at before the base, but a double is a real number. -/
theorem power_number (regular : 0 ≤ t.bound) (base : Value) (x : Float) :
    power t base (.number x) = (do powerComplex t (← toComplex "power" base) x) := by
  have real : t.isZero 0 = true := t.isZero_of_eq_zero regular rfl
  exact if_pos real

/-- Every double that counts as an integer other than zero has the power of this integer. -/
theorem power_of_integer (regular : 0 ≤ t.bound) (base : Value) {x : Float} {n : Int}
    (counts : t.integer? x = some n) (nonzero : n ≠ 0) :
    power t base (.number x) = (do integerPower t (← toComplex "power" base) n) := by
  have sign := (Tolerance.exact_of_integer? counts).2 nonzero
  have does (z : Complex) : powerComplex t z x = integerPower t z n := by
    simp only [powerComplex, counts, integerPower, collapse_divideComplex]
    exact if_congr sign rfl rfl
  rw [power_number regular]
  simp only [does]

theorem power_ofInt (regular : 0 ≤ t.bound) (base : Value) {n : Int} (exact : Number.IsExact n)
    (nonzero : n ≠ 0) :
    power t base (.number (Number.ofInt n)) =
      (do integerPower t (← toComplex "power" base) n) :=
  power_of_integer regular base (t.integer?_ofInt regular exact) nonzero

theorem integerPower_natCast (base : Complex) (n : Nat) :
    integerPower t base n = .ok (t.collapse (naturalPower t base n)) := by
  rw [integerPower, if_neg (by omega), Int.natAbs_natCast]

theorem integerPower_neg (base : Complex) {n : Nat} (positive : 0 < n) :
    integerPower t base (-n) = divideComplex t (.ofReal 1) (naturalPower t base n) := by
  rw [integerPower, if_pos (by omega), Int.natAbs_neg, Int.natAbs_natCast]

/-- One more factor. -/
theorem multiply_naturalPower {base : Value} {z : Complex} (number : toComplex "power" base = .ok z)
    {n : Nat} (positive : 0 < n) :
    multiply t (t.collapse (naturalPower t z n)) base =
      .ok (t.collapse (naturalPower t z (n + 1))) := by
  rw [multiply, toComplex_naturalPower _ _ positive, toComplex_of_ok number]
  exact congrArg Except.ok (t.collapse_settled _).symm

/-- Integer powers are repeated products and the reciprocals of these, under every tolerance that is
not negative. The power with the next integer is the product of the power and the base, the first
power is the product of one and the base, and a negative power is one divided by the positive one,
with the same fault if that is not possible. A base that is no number is refused with every
exponent. A double that counts as an integer other than zero is as good as the integer. -/
theorem integer_powers (regular : 0 ≤ t.bound) (base : Value) :
    (∀ n : Int, 1 ≤ n → Number.IsExact n → Number.IsExact (n + 1) →
      power t base (.number (Number.ofInt (n + 1))) =
        (do multiply t (← power t base (.number (Number.ofInt n))) base)) ∧
    (base.isNumeric → power t base (.number (Number.ofInt 1)) = multiply t (.number 1) base) ∧
    (∀ n : Int, 1 ≤ n → Number.IsExact n →
      power t base (.number (Number.ofInt (-n))) =
        (do divide t (.number 1) (← power t base (.number (Number.ofInt n))))) ∧
    (base.isNumeric = false → ∀ x, power t base (.number x) =
      .error (.ofCause (.notComplex "power" base.typeName))) ∧
    ∀ x n, t.integer? x = some n → n ≠ 0 →
      power t base (.number x) = power t base (.number (Number.ofInt n)) := by
  refine ⟨fun n above exact next => ?_, fun numeric => ?_, fun n above exact => ?_,
    fun other x => ?_, fun x n counts nonzero => ?_⟩
  · obtain ⟨n, rfl⟩ := Int.eq_ofNat_of_zero_le (by omega : 0 ≤ n)
    rw [power_ofInt regular base exact (by omega), power_ofInt regular base next (by omega)]
    cases number : toComplex "power" base with
    | error fault => rfl
    | ok z =>
        change integerPower t z ((n + 1 : Nat) : Int) = integerPower t z n >>= _
        rw [integerPower_natCast, integerPower_natCast]
        exact (multiply_naturalPower number (by omega)).symm
  · have one := Number.isExact_of_natAbs_lt (n := 1) (by decide)
    rw [power_ofInt regular base one one_ne_zero, multiply]
    cases base with
    | text | list => cases numeric
    | _ => exact congrArg Except.ok (t.collapse_settled _)
  · obtain ⟨n, rfl⟩ := Int.eq_ofNat_of_zero_le (by omega : 0 ≤ n)
    have positive : 0 < n := by omega
    rw [power_ofInt regular base exact (by omega), power_ofInt regular base exact.neg (by omega)]
    cases toComplex "power" base with
    | error fault => rfl
    | ok z =>
        change integerPower t z (-n) = integerPower t z n >>= _
        rw [integerPower_natCast, integerPower_neg z positive]
        change _ = divide t (.number 1) _
        rw [divide, toComplex_naturalPower _ _ positive]
        rfl
  · rw [power_number regular]
    cases base with
    | text | list => rfl
    | _ => cases other
  · rw [power_of_integer regular base counts nonzero,
      power_ofInt regular base (Tolerance.exact_of_integer? counts).1 nonzero]

/-- With the standard tolerance: the third power of `i` is its square times `i`, and `i` has with
`2.0000000001` the same power as with two; zero with the exponent minus two is one divided by its
square; and no text has a power. -/
theorem integer_powers_imaginary :
    let t := Tolerance.standard
    let i := Value.complex ⟨0, 1⟩
    0 ≤ t.bound ∧ Number.IsExact 2 ∧ Number.IsExact 3 ∧
      power t i (.number (Number.ofInt 3)) =
        (do multiply t (← power t i (.number (Number.ofInt 2))) i) ∧
      t.integer? 2.0000000001 = some 2 ∧
      power t i (.number 2.0000000001) = power t i (.number (Number.ofInt 2)) ∧
      power t (.number 0) (.number (Number.ofInt (-2))) =
        (do divide t (.number 1) (← power t (.number 0) (.number (Number.ofInt 2)))) ∧
      power t (.text "a") (.number 2) = .error (.ofCause (.notComplex "power" "string")) := by
  intro t i
  have regular : 0 ≤ t.bound := by decide +kernel
  have two : Number.IsExact 2 := Number.isExact_of_natAbs_lt (by decide)
  have three : Number.IsExact 3 := Number.isExact_of_natAbs_lt (by decide)
  have counts : t.integer? 2.0000000001 = some 2 := by decide +kernel
  have powers := integer_powers regular i
  refine ⟨regular, two, three, ?_, counts, ?_, ?_, ?_⟩
  · exact powers.1 2 (by decide) two three
  · exact powers.2.2.2.2 _ _ counts (by decide)
  · exact (integer_powers regular (.number 0)).2.2.1 2 (by decide) two
  · exact (integer_powers regular (.text "a")).2.2.2.1 rfl 2

end Arith

end Reckoner
