import Reckoner.Proofs.Contract
import Reckoner.Proofs.ReadBack
import Reckoner.Proofs.RoundedOnce

set_option autoImplicit false

/-!
Factorials. The test for an integer is exact although it is made on doubles, since the difference
from the nearest integer is itself a double. The product may stop as soon as it is infinite, since
its factors are positive and an infinite product stays infinite.
-/

namespace Reckoner

theorem Binary.mantissa_pos {b : Binary} (nonzero : b.value ≠ 0) : 0 < b.mantissa :=
  Nat.pos_of_ne_zero fun empty => nonzero (value_of_empty empty)

namespace Tolerance

variable {t : Tolerance} {x : Float} {b : Binary}

/-- A magnitude is within the tolerance, in exact arithmetic. -/
def Covers (t : Tolerance) (q : ℚ) : Prop :=
  t.bound = Number.infinity ∨ ∃ c, Binary.ofFloat? t.bound = some c ∧ q ≤ c.value

/-- A number is finite and within the tolerance of some integer, in exact arithmetic. -/
def NearInteger (t : Tolerance) (x : Float) : Prop :=
  ∃ b, Binary.ofFloat? x = some b ∧ ∃ n : Int, t.Covers |b.value - n|

theorem Covers.mono {p q : ℚ} (covers : t.Covers q) (smaller : p ≤ q) : t.Covers p := by
  refine covers.imp_right ?_
  rintro ⟨c, bound, within⟩
  exact ⟨c, bound, smaller.trans within⟩

theorem isZero_iff_covers (exact : Binary.ofFloat? x = some b) :
    t.isZero x = true ↔ t.Covers |b.value| := by
  have magnitude := Binary.ofFloat?_magnitude exact
  unfold isZero Covers
  rw [decide_eq_true_iff]
  cases bound : Binary.ofFloat? t.bound with
  | some c =>
      have finite : t.bound ≠ Number.infinity := by
        intro infinite
        rw [infinite] at bound
        cases bound
      rw [Number.le_iff_value magnitude bound, Binary.value_magnitude]
      simp [finite]
  | none =>
      rw [Binary.ofFloat?_eq_ofUnpacked?] at exact
      rw [Number.le_iff, Number.unpack_abs]
      generalize x.toModel.unpack = u at exact ⊢
      rcases Number.eq_of_ofFloat?_none bound with nan | infinite | negative
      · rw [nan]
        refine iff_of_false ?_ ?_
        · cases u <;> exact Bool.false_ne_true
        · rintro (same | ⟨c, same, -⟩)
          · exact absurd (congrArg Float.isNaN same) (by decide +kernel)
          · cases same
      · rw [infinite]
        refine iff_of_true ?_ (.inl rfl)
        cases u with
        | notANumber => cases exact
        | infinity | zero | finite => rfl
      · rw [negative]
        refine iff_of_false ?_ ?_
        · cases u <;> exact Bool.false_ne_true
        · rintro (same | ⟨c, same, -⟩)
          · exact absurd (congrArg (0 < ·) same) (by decide +kernel)
          · cases same

theorem covers_zero (regular : 0 ≤ t.bound) : t.Covers 0 := by
  have test := isZero_iff_covers (t := t) Binary.ofFloat?_zero
  have covers := test.mp (t.isZero_of_eq_zero regular rfl)
  rwa [Binary.value_of_empty rfl, abs_zero] at covers

/-- The test for an integer is exact. -/
theorem isInteger_iff_nearInteger (t : Tolerance) (x : Float) :
    t.isInteger x = true ↔ t.NearInteger x := by
  unfold isInteger integer? NearInteger
  cases exact : Binary.ofFloat? x with
  | none => simp
  | some b =>
      obtain ⟨c, integer, value⟩ := (Number.isExact_nearestEven exact).ofFloat?_ofInt
      have near := b.abs_sub_nearestEven_le
      obtain ⟨z, d, exactZ, difference⟩ := Binary.exists_float_sub_int exact near
      rw [← value] at difference
      obtain ⟨e, exactE, same⟩ := Number.ofFloat?_sub exact integer exactZ difference
      have test := isZero_iff_covers (t := t) exactE
      rw [same, value] at test
      simp only [Option.some.injEq, exists_eq_left']
      constructor
      · intro counts
        refine ⟨b.nearestEven, test.mp ?_⟩
        by_contra far
        rw [if_neg far] at counts
        cases counts
      · rintro ⟨n, within⟩
        rw [if_pos (test.mpr (within.mono (Binary.closest_of_near near n)))]
        rfl

end Tolerance

namespace Number

variable {x y : Float} {b : Binary}

def AtLeastOne (x : Float) : Prop :=
  x = infinity ∨ ∃ b, Binary.ofFloat? x = some b ∧ 1 ≤ b.value

theorem atLeastOne_toFloat (large : 1 ≤ b.value) : AtLeastOne b.toFloat := by
  obtain ⟨one, d, exact, value⟩ := isExact_of_natAbs_lt (n := 1) (by decide)
  rw [Int.cast_one] at value
  rw [← value] at large
  unfold AtLeastOne
  rw [← value]
  exact le_value_toFloat exact (value ▸ one_pos) large

theorem atLeastOne_ofInt {n : Nat} (positive : 1 ≤ n) : AtLeastOne (ofInt n) := by
  have value : (1 : ℚ) ≤ (⟨((n : Int) < 0 : Bool), (n : Int).natAbs, 0⟩ : Binary).value := by
    rw [Binary.value_ofSigned, zpow_zero, mul_one, Int.cast_natCast]
    exact_mod_cast positive
  exact atLeastOne_toFloat value

theorem unpack_of_value_pos (exact : Binary.ofFloat? x = some b) (positive : 0 < b.value) :
    ∃ mantissa exponent full, x.toModel.unpack = .finite .positive mantissa exponent full := by
  have full := Binary.mantissa_pos positive.ne'
  refine ⟨b.mantissa, b.exponent, full, ?_⟩
  rw [unpack_of_pos exact full, Binary.sign, Binary.negative_of_value_pos positive]
  rfl

/-- The double nearest to a large number is an integer. -/
theorem IsNearest.exists_integer {n : Nat} (nearest : IsNearest ((n : ℚ) / (1 : Nat)) b)
    (exact : Binary.ofFloat? x = some b) (large : 2 * Binary.hiddenBit ≤ n) :
    ∃ k : Nat, b.value = k ∧ 2 * Binary.hiddenBit - 1 ≤ k := by
  obtain ⟨y, c, exactY, start⟩ := isExact_of_natAbs_lt (n := 9007199254740991) (by decide)
  have above : 9007199254740991 ≤ b.value := by
    have below : c.value ≤ (n : ℚ) / (1 : Nat) := by
      have wide : 9007199254740991 ≤ n := Nat.le_of_succ_le large
      rw [start, Nat.cast_one, div_one]
      exact_mod_cast wide
    have ordered := nearest.le_value exactY below
    rw [start] at ordered
    exact_mod_cast ordered
  have whole : 0 ≤ b.exponent := by
    by_contra fine
    have width := (Binary.fits_of_ofFloat? exact).width
    have low := Binary.abs_value_lt_of_exponent_neg width (not_le.mp fine)
    have magnitude := le_abs_self b.value
    linarith
  have integer := Binary.value_eq_nearestEven whole
  rw [integer] at above
  have above : 9007199254740991 ≤ b.nearestEven := by exact_mod_cast above
  refine ⟨b.nearestEven.toNat, ?_, ?_⟩
  · rw [integer, ← Int.cast_natCast, Int.toNat_of_nonneg (by omega)]
  · simp only [Binary.hiddenBit]
    omega

/-- An infinite product stays infinite. -/
theorem infinity_mul (large : AtLeastOne y) : infinity * y = infinity := by
  rcases large with rfl | ⟨c, exact, notLess⟩
  · rfl
  · obtain ⟨m, e, full, form⟩ := unpack_of_value_pos exact (zero_lt_one.trans_le notLess)
    apply eq_of_unpack_eq
    rw [unpack_mul, form]
    rfl

theorem mul_infinity (exact : Binary.ofFloat? x = some b) (positive : 0 < b.value) :
    x * infinity = infinity := by
  obtain ⟨m, e, full, form⟩ := unpack_of_value_pos exact positive
  apply eq_of_unpack_eq
  rw [unpack_mul, form]
  rfl

theorem AtLeastOne.mul (largeX : AtLeastOne x) (largeY : AtLeastOne y) : AtLeastOne (x * y) := by
  rcases largeX with rfl | ⟨b, exactX, notLessX⟩
  · exact .inl (infinity_mul largeY)
  have positiveB : 0 < b.value := zero_lt_one.trans_le notLessX
  rcases largeY with rfl | ⟨c, exactY, notLessY⟩
  · exact .inl (mul_infinity exactX positiveB)
  · have positiveC : 0 < c.value := zero_lt_one.trans_le notLessY
    rw [mul_eq_toFloat exactX exactY (Binary.mantissa_pos positiveB.ne')
      (Binary.mantissa_pos positiveC.ne')]
    apply atLeastOne_toFloat
    rw [b.value_product]
    exact one_le_mul_of_one_le_of_one_le notLessX notLessY

theorem AtLeastOne.eq_infinity (large : AtLeastOne x) (infinite : x.isInf = true) :
    x = infinity := by
  refine large.resolve_right ?_
  rintro ⟨b, exact, -⟩
  rw [isInf_of_ofFloat? exact] at infinite
  cases infinite

end Number

namespace Arith

variable {t : Tolerance}

def times (product : Float) (i : Nat) : Float :=
  product * Number.ofInt i

/-- The product of the integers from two to `n`, from left to right and to the end. -/
def fullProduct (n : Nat) : Float :=
  (List.range' 2 (n - 1)).foldl times 1

theorem foldl_infinity (factors : List Nat) (positive : ∀ i ∈ factors, 1 ≤ i) :
    factors.foldl times Number.infinity = Number.infinity := by
  induction factors with
  | nil => rfl
  | cons i rest ih =>
      have absorbed := Number.infinity_mul (Number.atLeastOne_ofInt (positive i (by simp)))
      rw [List.foldl_cons, times, absorbed]
      exact ih fun j later => positive j (List.mem_cons_of_mem i later)

/-- Stopping at the first infinite product changes nothing. -/
theorem risingProduct_eq_foldl (count : Nat) {next : Nat} (positive : 1 ≤ next) {product : Float}
    (large : Number.AtLeastOne product) :
    risingProduct count next product = (List.range' next count).foldl times product := by
  induction count generalizing next product with
  | zero => rfl
  | succ count ih =>
      have larger := large.mul (Number.atLeastOne_ofInt positive)
      rw [risingProduct, List.range'_succ, List.foldl_cons, times]
      split
      · rename_i infinite
        rw [larger.eq_infinity infinite]
        refine (foldl_infinity _ fun i inside => ?_).symm
        have after := (List.mem_range'_1.mp inside).1
        omega
      · exact ih (by omega) larger

theorem naturalFactorial_eq (n : Nat) : naturalFactorial n = fullProduct n := by
  have one : Number.ofInt (1 : Nat) = 1 := by decide +kernel
  have large := Number.atLeastOne_ofInt le_rfl
  rw [one] at large
  exact risingProduct_eq_foldl (n - 1) (by decide) large

theorem fullProduct_of_le_one {n : Nat} (small : n ≤ 1) : fullProduct n = 1 := by
  rw [fullProduct, show n - 1 = 0 by omega]
  rfl

/-- One more factor at the end. -/
theorem fullProduct_succ {n : Nat} (positive : 1 ≤ n) :
    fullProduct (n + 1) = fullProduct n * Number.ofInt (n + 1 : Nat) := by
  obtain ⟨k, rfl⟩ := Nat.exists_eq_add_of_le' positive
  rw [fullProduct, fullProduct, Nat.add_sub_cancel, Nat.add_sub_cancel, List.range'_1_concat,
    List.foldl_append, Nat.add_comm 2 k]
  rfl

/-- The factorials beyond the range. -/
theorem fullProduct_of_large {n : Nat} (large : 171 ≤ n) : fullProduct n = Number.infinity := by
  induction n, large using Nat.le_induction with
  | base => decide +kernel
  | succ n large ih =>
      rw [fullProduct_succ (by omega), ih, Number.infinity_mul (Number.atLeastOne_ofInt (by omega))]

variable {v : Value} {x : Float} {b : Binary}

theorem factorial_of_refused (real : v.real? t = some x)
    (refused : x < 0 ∨ x.isFinite = false ∨ ¬ t.NearInteger x) :
    factorial t v = .error (.ofCause (.invalidFactorial x)) := by
  have test := t.isInteger_iff_nearInteger x
  simp only [factorial, toReal_of_real real, bind, Except.bind]
  cases exact : Binary.ofFloat? x with
  | none => rfl
  | some b =>
      have finite := Binary.isFinite_of_ofFloat? exact
      have guard : (decide (x < 0) || !t.isInteger x) = true := by
        rcases refused with negative | infinite | far
        · simp [negative]
        · rw [finite] at infinite
          cases infinite
        · simp [Bool.eq_false_iff.mpr (mt test.mp far)]
      simp only [guard, if_true]
      rfl

theorem factorial_of_accepted (real : v.real? t = some x) (exact : Binary.ofFloat? x = some b)
    (nonneg : ¬ x < 0) (near : t.NearInteger x) :
    factorial t v = .ok (.number (fullProduct ⌊b.value⌋.toNat)) := by
  have guard : (decide (x < 0) || !t.isInteger x) = false := by
    simp [nonneg, (t.isInteger_iff_nearInteger x).mpr near]
  simp only [factorial, toReal_of_real real, bind, Except.bind, exact, guard, if_false,
    Bool.false_eq_true, naturalFactorial_eq, b.floor_eq]
  rfl

/-- A natural number has the product up to it. -/
theorem factorial_of_value (regular : 0 ≤ t.bound) (exact : Binary.ofFloat? x = some b) {n : Nat}
    (value : b.value = n) : factorial t (.number x) = .ok (.number (fullProduct n)) := by
  have nonneg : ¬ x < 0 := by
    rw [Number.lt_zero_iff exact, value, not_lt]
    exact Nat.cast_nonneg n
  have near : t.NearInteger x := by
    refine ⟨b, exact, n, ?_⟩
    rw [value, Int.cast_natCast, sub_self, abs_zero]
    exact t.covers_zero regular
  rw [factorial_of_accepted rfl exact nonneg near, value, Int.floor_natCast, Int.toNat_natCast]

/-- Also if the number is rounded to a double first: then it is far beyond the range. -/
theorem factorial_ofInt (regular : 0 ≤ t.bound) {n : Nat} (small : n < Number.overflowThreshold) :
    factorial t (.number (Number.ofInt n)) = .ok (.number (fullProduct n)) := by
  by_cases exact : Number.IsExact n
  · obtain ⟨b, fraction, value⟩ := exact.ofFloat?_ofInt
    exact factorial_of_value regular fraction (value.trans (Int.cast_natCast n))
  · have large : 2 * Binary.hiddenBit ≤ n := by
      by_contra short
      exact exact (Number.isExact_of_natAbs_lt (Nat.lt_of_not_le short))
    have finite := Number.isInf_nearest small
    obtain ⟨b, fraction, -, nearest⟩ := Number.nearest_isNearest n Nat.one_pos finite
    obtain ⟨k, value, beyond⟩ := nearest.exists_integer fraction large
    have infinite := fullProduct_of_large (n := k) (by
      simp only [Binary.hiddenBit] at beyond
      omega)
    have infinite' := fullProduct_of_large (n := n) (by
      simp only [Binary.hiddenBit] at large
      omega)
    rw [infinite', ← infinite]
    exact factorial_of_value regular fraction value

/-- A real operand has a factorial exactly if it is finite, not negative and within the tolerance
of an integer. The factorial is the full product up to the integer part of the operand, however
early the multiplication ends; so each is the one before it times the next number, also beyond the
range. -/
theorem factorial_is_full_product (regular : 0 ≤ t.bound) :
    (∀ (v : Value) (x : Float), v.real? t = some x →
      (FailsWith .invalidFactorial (factorial t v) ↔
        x < 0 ∨ x.isFinite = false ∨ ¬ t.NearInteger x) ∧
      (FailsWith .invalidFactorial (factorial t v) ∨
        ∃ b, Binary.ofFloat? x = some b ∧
          factorial t v = .ok (.number (fullProduct ⌊b.value⌋.toNat)) ∧
          (⌊b.value⌋ ≤ 1 → factorial t v = .ok (.number 1)))) ∧
    ∀ n : Nat, 1 ≤ n → Number.IsExact (n + 1) →
      ∃ y, factorial t (.number (Number.ofInt n)) = .ok (.number y) ∧
        factorial t (.number (Number.ofInt (n + 1))) =
          .ok (.number (y * Number.ofInt (n + 1))) := by
  refine ⟨fun v x real => ?_, fun n positive exact => ?_⟩
  · by_cases refused : x < 0 ∨ x.isFinite = false ∨ ¬ t.NearInteger x
    · have failed : FailsWith .invalidFactorial (factorial t v) :=
        ⟨.invalidFactorial x, factorial_of_refused real refused, rfl⟩
      exact ⟨iff_of_true failed refused, .inl failed⟩
    · obtain ⟨nonneg, -, near⟩ := not_or.mp refused |>.imp_right not_or.mp
      obtain ⟨b, exact, -⟩ := not_not.mp near
      have product := factorial_of_accepted real exact nonneg (not_not.mp near)
      refine ⟨iff_of_false ?_ refused, .inr ⟨b, exact, product, fun small => ?_⟩⟩
      · rintro ⟨cause, failed, -⟩
        cases product.symm.trans failed
      · rw [product, fullProduct_of_le_one (by omega)]
  · have small : n + 1 < Number.overflowThreshold := by
      obtain ⟨b, fraction, -⟩ := exact.ofFloat?_ofInt
      have finite := Number.isInf_of_ofFloat? fraction
      rw [Number.isInf_ofInt] at finite
      exact Nat.lt_of_not_le fun large =>
        Bool.false_ne_true (finite.symm.trans (Number.isInf_nearest_iff.mpr large))
    refine ⟨fullProduct n, factorial_ofInt regular (Nat.lt_of_succ_lt small), ?_⟩
    have next := factorial_ofInt regular small
    rwa [fullProduct_succ positive, Nat.cast_succ] at next

/-- The recurrence where the product first exceeds the range, and a refusal. -/
theorem factorial_is_full_product_beyond :
    0 ≤ Tolerance.standard.bound ∧
    FailsWith .invalidFactorial (factorial .standard (.number (-1))) ∧
    ∃ y, factorial .standard (.number (Number.ofInt (170 : Nat))) = .ok (.number y) ∧
      factorial .standard (.number (Number.ofInt ((170 : Nat) + 1))) =
        .ok (.number (y * Number.ofInt ((170 : Nat) + 1))) := by
  have regular : 0 ≤ Tolerance.standard.bound := by decide +kernel
  obtain ⟨operands, recurrence⟩ := factorial_is_full_product regular
  refine ⟨regular, (operands (.number (-1)) (-1) rfl).1.mpr (.inl (by decide +kernel)), ?_⟩
  exact recurrence 170 (by decide) (Number.isExact_of_natAbs_lt (by decide))

-- What counts as three still has the factorial of two.
example : Tolerance.standard.integer? 2.9999999999 = some 3 ∧
    (Binary.ofFloat? 2.9999999999).map Binary.floor = some 2 ∧ naturalFactorial 2 = 2 := by
  decide +kernel

end Arith

end Reckoner
