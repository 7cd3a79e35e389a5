import Reckoner.Proofs.Integers

set_option autoImplicit false

/-!
Differences and products of doubles are rounded once. Of the bits that find no room the arithmetic
keeps two: whether the first of them is set, and whether any other is. That is enough for the result
to be the double nearest to the exact one, and for a difference that is a double to be exact.
-/

namespace Reckoner

open Float.Model (UnpackedFloat Format totalExponent)
open Float.Model.UnpackedFloat

namespace Number

/-- The exact number behind a mantissa and the two bits that are kept of what follows it. -/
inductive Guards : ExtendedMantissa → ℚ → Prop
  | none (m : Nat) : Guards ⟨m, false, false⟩ m
  | low (m : Nat) {part : ℚ} (some : 0 < part) (below : part < 1 / 2) :
    Guards ⟨m, false, true⟩ (m + part)
  | half (m : Nat) : Guards ⟨m, true, false⟩ (m + 1 / 2)
  | high (m : Nat) {part : ℚ} (above : 1 / 2 < part) (below : part < 1) :
    Guards ⟨m, true, true⟩ (m + part)

namespace Guards

variable {em : ExtendedMantissa} {q : ℚ}

/-- The two bits decide how to round. -/
theorem roundsTo (guards : Guards em q) : RoundsTo q em.roundedMantissa := by
  cases guards with
  | none m => exact .self m
  | low m some below => exact .down m some.le below
  | half m => exact .tie m
  | high m above below => exact .up m above below

theorem shiftRightOne_even (k : Nat) (round sticky : Bool) :
    ExtendedMantissa.shiftRightOne ⟨2 * k, round, sticky⟩ = ⟨k, false, round || sticky⟩ := by
  simp [ExtendedMantissa.shiftRightOne]

theorem shiftRightOne_odd (k : Nat) (round sticky : Bool) :
    ExtendedMantissa.shiftRightOne ⟨2 * k + 1, round, sticky⟩ = ⟨k, true, round || sticky⟩ := by
  have half : (2 * k + 1) / 2 = k := by omega
  simp [ExtendedMantissa.shiftRightOne, half]

/-- The last bit of the mantissa becomes the first of those that follow it. -/
theorem shiftRightOne (guards : Guards em q) : Guards em.shiftRightOne (q / 2) := by
  have even (k : Nat) (part : ℚ) : ((2 * k : Nat) + part) / 2 = k + part / 2 := by
    push_cast
    ring
  have odd (k : Nat) (part : ℚ) : ((2 * k + 1 : Nat) + part) / 2 = k + (1 + part) / 2 := by
    push_cast
    ring
  cases guards with
  | none m =>
      rw [← add_zero (m : ℚ)]
      rcases Nat.even_or_odd' m with ⟨k, rfl | rfl⟩
      · rw [shiftRightOne_even, even, zero_div, add_zero]
        exact .none k
      · rw [shiftRightOne_odd, odd, add_zero]
        exact .half k
  | low m some below =>
      rcases Nat.even_or_odd' m with ⟨k, rfl | rfl⟩
      · rw [shiftRightOne_even, even]
        exact .low k (by linarith) (by linarith)
      · rw [shiftRightOne_odd, odd]
        exact .high k (by linarith) (by linarith)
  | half m =>
      rcases Nat.even_or_odd' m with ⟨k, rfl | rfl⟩
      · rw [shiftRightOne_even, even]
        exact .low k (by norm_num) (by norm_num)
      · rw [shiftRightOne_odd, odd]
        exact .high k (by norm_num) (by norm_num)
  | high m above below =>
      rcases Nat.even_or_odd' m with ⟨k, rfl | rfl⟩
      · rw [shiftRightOne_even, even]
        exact .low k (by linarith) (by linarith)
      · rw [shiftRightOne_odd, odd]
        exact .high k (by linarith) (by linarith)

theorem shiftRight (guards : Guards em q) (n : Nat) : Guards (em >>> n) (q / 2 ^ n) := by
  change Guards (n.repeat ExtendedMantissa.shiftRightOne em) _
  induction n with
  | zero => simpa [Nat.repeat] using guards
  | succ n ih =>
      rw [pow_succ, ← div_div]
      exact ih.shiftRightOne

end Guards

end Number

namespace Binary

def sign (b : Binary) : Sign :=
  if b.negative then .negative else .positive

theorem sign_lengthened (b : Binary) (zeros : Nat) : (b.lengthened zeros).sign = b.sign := rfl

theorem toUnpacked_of_pos {b : Binary} (positive : 0 < b.mantissa) :
    b.toUnpacked = .finite b.sign b.mantissa b.exponent positive :=
  dif_pos positive

theorem toUnpacked_of_empty {b : Binary} (empty : b.mantissa = 0) : b.toUnpacked = .zero b.sign :=
  dif_neg (by omega)

/-- The fraction with its mantissa rounded to fifty-three bits, however large the exponent. -/
def rounded (b : Binary) : Binary :=
  let unit := Number.unitExponent b.numerator b.denominator
  { carried (Number.mantissaAt b.numerator b.denominator unit) unit with negative := b.negative }

end Binary

namespace Number

variable {b : Binary}

theorem targetExponent_eq (positive : 0 < b.mantissa) :
    Format.binary64.targetExponent (totalExponent b.mantissa b.exponent) =
      unitExponent b.numerator b.denominator := by
  rw [Binary.unitExponent_eq_log2 positive]
  change max ((b.mantissa.log2 : Int) + 1 + b.exponent - 53) (-1074) = _
  omega

/-- Shifting to the unit of a fraction rounds the mantissa. -/
theorem shiftToTargetExponent_eq (positive : 0 < b.mantissa)
    (fine : b.exponent ≤ unitExponent b.numerator b.denominator) :
    ∃ em, shiftToTargetExponent Format.binary64 b.mantissa b.exponent .exact =
        (em, unitExponent b.numerator b.denominator) ∧
      em.roundedMantissa =
        mantissaAt b.numerator b.denominator (unitExponent b.numerator b.denominator) := by
  have rounds := mantissaAt_roundsTo b.numerator b.denominator_pos
    (unitExponent b.numerator b.denominator)
  have target := targetExponent_eq positive
  rw [Binary.numerator_div_denominator] at rounds
  generalize unitExponent b.numerator b.denominator = unit at *
  have guards := (Guards.none b.mantissa).shiftRight (unit - b.exponent).toNat
  have scaled : (b.mantissa : ℚ) * 2 ^ b.exponent / 2 ^ unit =
      b.mantissa / 2 ^ (unit - b.exponent).toNat := by
    rw [← zpow_natCast, Int.toNat_of_nonneg (by omega), zpow_sub₀ two_ne_zero]
    field_simp
  rw [scaled] at rounds
  refine ⟨_, ?_, guards.roundsTo.unique rounds⟩
  simp only [shiftToTargetExponent, shiftToExponent, target]
  refine Prod.ext rfl ?_
  dsimp only
  omega

/-- The second shift makes room for a carry. -/
theorem shiftToTargetExponent_carried {m : Nat} {unit : Int} (width : m ≤ 2 * Binary.hiddenBit)
    (least : -1074 ≤ unit) :
    (shiftToTargetExponent Format.binary64 m unit .exact).1.mantissa =
        (Binary.carried m unit).mantissa ∧
      (shiftToTargetExponent Format.binary64 m unit .exact).2 =
        (Binary.carried m unit).exponent := by
  have target : Format.binary64.targetExponent (totalExponent m unit) =
      max ((m.log2 : Int) + 1 + unit - 53) (-1074) := rfl
  simp only [shiftToTargetExponent, shiftToExponent, target, Binary.carried]
  split
  · rename_i carry
    have length : m.log2 = 53 := by rw [carry]; decide +kernel
    have one : (max ((m.log2 : Int) + 1 + unit - 53) (-1074) - unit).toNat = 1 := by omega
    rw [one, carry]
    exact ⟨rfl, rfl⟩
  · have short : m.log2 ≤ 52 := by
      rcases Nat.eq_zero_or_pos m with rfl | positive
      · decide
      · exact Nat.le_of_lt_succ ((Nat.log2_lt (k := 53) positive.ne').mpr (by
          simp only [Binary.hiddenBit] at *
          omega))
    have none : (max ((m.log2 : Int) + 1 + unit - 53) (-1074) - unit).toNat = 0 := by omega
    rw [none]
    exact ⟨rfl, Int.add_zero unit⟩

theorem roundWithAccuracy_eq (positive : 0 < b.mantissa)
    (fine : b.exponent ≤ unitExponent b.numerator b.denominator) :
    roundWithAccuracy Format.binary64 b.sign b.mantissa b.exponent .exact =
      b.rounded.toUnpacked := by
  obtain ⟨em, shifted, rounds⟩ := shiftToTargetExponent_eq positive fine
  obtain ⟨width, -⟩ := mantissaAt_bounds (Binary.numerator_pos positive) b.denominator_pos
  have least : -1074 ≤ unitExponent b.numerator b.denominator := by
    rw [Binary.unitExponent_eq_log2 positive]
    exact le_max_right _ _
  obtain ⟨mantissa, exponent⟩ := shiftToTargetExponent_carried width least
  simp only [roundWithAccuracy, shifted, rounds]
  split
  · rename_i empty
    rw [mantissa] at empty
    exact (Binary.toUnpacked_of_empty (b := b.rounded) empty).symm
  · rename_i full
    rw [mantissa] at full
    rw [Binary.toUnpacked_of_pos (Nat.pos_of_ne_zero full : 0 < b.rounded.mantissa)]
    exact finite_congr mantissa exponent

/-- Packing a rounded fraction gives the double nearest to the fraction. -/
theorem unpack_pack_rounded (positive : 0 < b.mantissa) :
    unpack Format.binary64 (pack Format.binary64 b.rounded.toUnpacked) =
      b.toFloat.toModel.unpack := by
  have numPos := Binary.numerator_pos positive
  obtain ⟨width, full⟩ := mantissaAt_bounds numPos b.denominator_pos
  have bits := nearest_eq numPos b.denominator
  have least : -1074 ≤ unitExponent b.numerator b.denominator := by
    rw [Binary.unitExponent_eq_log2 positive]
    exact le_max_right _ _
  by_cases small : mantissaAt b.numerator b.denominator (unitExponent b.numerator b.denominator) +
      (unitExponent b.numerator b.denominator + 1074).toNat <<< 52 < infinityBits
  · have finite : (nearest b.numerator b.denominator).isInf = false := by
      rw [bits, Nat.min_eq_left small.le]
      exact isInf_ofBits small
    have exact : Binary.ofFloat? b.toFloat = some b.rounded := by
      refine Binary.ofFloat?_signed (ofFloat?_nearest numPos b.denominator_pos finite) ?_ b.negative
      unfold Binary.carried
      split <;> rfl
    rw [Binary.ofFloat?_eq_ofUnpacked?] at exact
    rw [← Binary.eq_toUnpacked exact]
    exact unpack_pack (representable_unpack _)
  · have infinite : b.toFloat = signed b.negative infinity := by
      rw [Binary.toFloat, bits, Nat.min_eq_right (Nat.le_of_not_lt small), infinity]
    have beyond : 0 < b.rounded.mantissa ∧ 971 < b.rounded.exponent := by
      have shifted := Nat.shiftLeft_eq (unitExponent b.numerator b.denominator + 1074).toNat 52
      have top : infinityBits = 2047 * 4503599627370496 := by decide
      rw [shifted, top] at small
      simp only [Binary.rounded, Binary.carried]
      split
      · simp only [Binary.hiddenBit] at *
        omega
      · simp only [Binary.hiddenBit] at *
        omega
    rw [infinite, Binary.toUnpacked_of_pos beyond.1, pack_finite, if_pos (by omega)]
    change unpack Format.binary64 (packedInfinity Format.binary64 b.sign) = _
    unfold Binary.sign
    cases b.negative <;> rfl

theorem unpack_pack_roundWithAccuracy (positive : 0 < b.mantissa)
    (fine : b.exponent ≤ unitExponent b.numerator b.denominator) :
    unpack Format.binary64 (pack Format.binary64
      (roundWithAccuracy Format.binary64 b.sign b.mantissa b.exponent .exact)) =
      b.toFloat.toModel.unpack := by
  rw [roundWithAccuracy_eq positive fine, unpack_pack_rounded positive]

end Number

namespace Binary

theorem value_of_empty {b : Binary} (empty : b.mantissa = 0) : b.value = 0 := by
  simp [value_eq, empty]

theorem value_ne_zero {b : Binary} (positive : 0 < b.mantissa) : b.value ≠ 0 := by
  rw [← abs_pos, abs_value, numerator_div_denominator]
  positivity

/-- Fractions of the same value have the same nearest double, unless they are zero. -/
theorem toFloat_congr {b c : Binary} (same : b.value = c.value) (nonzero : b.value ≠ 0) :
    b.toFloat = c.toFloat := by
  have magnitude : Number.nearest b.numerator b.denominator =
      Number.nearest c.numerator c.denominator := by
    apply Number.nearest_congr b.denominator_pos c.denominator_pos
    rw [← abs_value, ← abs_value, same]
  have positive : 0 < |c.value| := abs_pos.mpr (same ▸ nonzero)
  have signs : b.negative = c.negative := by
    have first := b.value_eq_signed
    have second := c.value_eq_signed
    rw [same] at first
    cases negB : b.negative <;> cases negC : c.negative <;> simp [negB, negC] at first second
    all_goals first
      | rfl
      | linarith
  rw [toFloat, toFloat, magnitude, signs]

end Binary

namespace Number

theorem unpack_pack_round {b : Binary} (positive : 0 < b.mantissa) :
    unpack Format.binary64 (pack Format.binary64
      (UnpackedFloat.round Format.binary64 b.sign b.mantissa b.exponent)) =
      b.toFloat.toModel.unpack := by
  -- Zeros after the mantissa change neither the value nor the unit.
  have unit := Binary.unitExponent_eq_log2 positive
  obtain ⟨zeros, amount⟩ : ∃ zeros, (b.exponent - unitExponent b.numerator b.denominator).toNat =
      zeros := ⟨_, rfl⟩
  have length : (b.lengthened zeros).mantissa.log2 = b.mantissa.log2 + zeros :=
    log2_shiftLeft positive zeros
  have longer : 0 < (b.lengthened zeros).mantissa := by
    rw [Binary.lengthened, Nat.shiftLeft_eq]
    positivity
  have fine : (b.lengthened zeros).exponent ≤
      unitExponent (b.lengthened zeros).numerator (b.lengthened zeros).denominator := by
    rw [Binary.unitExponent_eq_log2 longer, length]
    dsimp only [Binary.lengthened]
    omega
  have nonzero : (b.lengthened zeros).value ≠ 0 := Binary.value_ne_zero longer
  rw [← Binary.toFloat_congr (b.value_lengthened zeros) nonzero]
  simp only [UnpackedFloat.round, decreaseExponent, targetExponent_eq positive, amount]
  have same := unpack_pack_roundWithAccuracy longer fine
  rwa [b.sign_lengthened] at same

theorem unpack_pack_normalize {d : Int} (nonzero : d ≠ 0) (e : Int) (zeroSign : Sign) :
    unpack Format.binary64 (pack Format.binary64
      (UnpackedFloat.normalize Format.binary64 d e zeroSign)) =
      (⟨d < 0, d.natAbs, e⟩ : Binary).toFloat.toModel.unpack := by
  have positive : 0 < d.natAbs := Int.natAbs_pos.mpr nonzero
  rcases lt_or_gt_of_ne nonzero with below | above
  · have same := unpack_pack_round (b := ⟨true, d.natAbs, e⟩) positive
    have magnitude : (-d).toNat = d.natAbs := by omega
    simp only [UnpackedFloat.normalize, Int.compare_eq_lt.mpr below, magnitude,
      decide_eq_true below]
    exact same
  · have same := unpack_pack_round (b := ⟨false, d.natAbs, e⟩) positive
    have magnitude : d.toNat = d.natAbs := by omega
    simp only [UnpackedFloat.normalize, Int.compare_eq_gt.mpr above, magnitude,
      decide_eq_false above.not_gt]
    exact same

end Number

namespace Binary

def signedScaledTo (b : Binary) (unit : Int) : Int :=
  b.sign.apply (b.scaledTo unit)

def difference (a b : Binary) : Binary :=
  let unit := min a.exponent b.exponent
  let mantissa := a.signedScaledTo unit - b.signedScaledTo unit
  ⟨mantissa < 0, mantissa.natAbs, unit⟩

def product (a b : Binary) : Binary :=
  ⟨a.negative != b.negative, a.mantissa * b.mantissa, a.exponent + b.exponent⟩

theorem signedScaledTo_mul_zpow {b : Binary} {unit : Int} (fine : unit ≤ b.exponent) :
    (b.signedScaledTo unit : ℚ) * 2 ^ unit = b.value := by
  have shift : ((b.exponent - unit).toNat : Int) = b.exponent - unit :=
    Int.toNat_of_nonneg (by omega)
  have magnitude : (b.scaledTo unit : ℚ) * 2 ^ unit = b.mantissa * 2 ^ b.exponent := by
    rw [scaledTo, Nat.shiftLeft_eq, Nat.cast_mul, Nat.cast_pow, Nat.cast_ofNat, mul_assoc,
      ← zpow_natCast, ← zpow_add₀ two_ne_zero, shift, sub_add_cancel]
  rw [value_eq, ← magnitude, signedScaledTo, sign]
  cases b.negative <;> simp [Sign.apply]

theorem value_difference (a b : Binary) : (a.difference b).value = a.value - b.value := by
  rw [difference, value_ofSigned, Int.cast_sub, sub_mul,
    signedScaledTo_mul_zpow (min_le_left _ _), signedScaledTo_mul_zpow (min_le_right _ _)]

theorem value_difference_ne_zero {a b : Binary} (distinct : a.value ≠ b.value) :
    (a.difference b).value ≠ 0 := by
  rw [value_difference]
  exact sub_ne_zero.mpr distinct

theorem value_product (a b : Binary) : (a.product b).value = a.value * b.value := by
  have exponents : (2 : ℚ) ^ (a.exponent + b.exponent) = 2 ^ a.exponent * 2 ^ b.exponent :=
    zpow_add₀ two_ne_zero _ _
  rw [value_eq, value_eq, value_eq, product, exponents, Nat.cast_mul]
  cases a.negative <;> cases b.negative <;> simp <;> ring

theorem sign_product (a b : Binary) : (a.product b).sign = a.sign * b.sign := by
  obtain ⟨negative, _, _⟩ := a
  obtain ⟨negative', _, _⟩ := b
  cases negative <;> cases negative' <;> rfl

/-- No integer is nearer than one that is not more than a half away. -/
theorem closest_of_near {b : Binary} {n : Int} (near : |b.value - n| ≤ 1 / 2) (k : Int) :
    |b.value - n| ≤ |b.value - k| := by
  by_cases same : k = n
  · rw [same]
  · have apart : (1 : ℚ) ≤ |(n : ℚ) - k| := by
      exact_mod_cast Int.one_le_abs (sub_ne_zero.mpr (Ne.symm same))
    have triangle := abs_sub_le (n : ℚ) b.value k
    rw [abs_sub_comm (n : ℚ) b.value] at triangle
    linarith

/-- The difference of a double from an integer that is not more than a half away is a double: it is
not longer than the double, since zero is an integer. -/
theorem exists_float_sub_int {x : Float} {b : Binary} (exact : ofFloat? x = some b) {n : Int}
    (near : |b.value - n| ≤ 1 / 2) : ∃ z d, ofFloat? z = some d ∧ d.value = b.value - n := by
  obtain ⟨width, least, greatest, -⟩ := fits_of_ofFloat? exact
  by_cases whole : 0 ≤ b.exponent
  · have same : b.value = n := by
      have closest := closest_of_near near b.nearestEven
      rw [← value_eq_nearestEven whole, sub_self, abs_zero] at closest
      exact sub_eq_zero.mp (abs_nonpos_iff.mp closest)
    refine ⟨0, ⟨false, 0, -1074⟩, ofFloat?_zero, ?_⟩
    rw [value_of_empty rfl, same, sub_self]
  · -- The mantissa of the difference in the unit of the double.
    let k := b.signedScaledTo b.exponent - n * 2 ^ (-b.exponent).toNat
    have step : (0 : ℚ) < 2 ^ b.exponent := zpow_pos two_pos _
    have unit : (2 : ℚ) ^ (-b.exponent).toNat * 2 ^ b.exponent = 1 := by
      rw [← zpow_natCast, Int.toNat_of_nonneg (by omega), ← zpow_add₀ two_ne_zero,
        neg_add_cancel, zpow_zero]
    have difference : (k : ℚ) * 2 ^ b.exponent = b.value - n := by
      rw [← signedScaledTo_mul_zpow (b := b) le_rfl]
      push_cast [k]
      rw [sub_mul, mul_assoc, unit, mul_one]
    have short : k.natAbs ≤ b.mantissa := by
      have closest := closest_of_near near 0
      rw [← difference, Int.cast_zero, sub_zero, abs_value, numerator_div_denominator, abs_mul,
        abs_of_pos step, mul_le_mul_iff_left₀ step] at closest
      rw [← Nat.cast_le (α := ℚ), Nat.cast_natAbs, Int.cast_abs]
      exact closest
    obtain ⟨z, d, exactZ, value⟩ := exists_float (b := ⟨k < 0, k.natAbs, b.exponent⟩)
      (short.trans_lt width) least greatest
    exact ⟨z, d, exactZ, by rw [value, value_ofSigned, difference]⟩

end Binary

namespace Number

variable {x y z : Float} {b c d : Binary}

theorem unpack_of_pos (exact : Binary.ofFloat? x = some b) (positive : 0 < b.mantissa) :
    x.toModel.unpack = .finite b.sign b.mantissa b.exponent positive := by
  rw [Binary.ofFloat?_eq_ofUnpacked?] at exact
  rw [Binary.eq_toUnpacked exact, Binary.toUnpacked_of_pos positive]

theorem unpack_of_empty (exact : Binary.ofFloat? x = some b) (empty : b.mantissa = 0) :
    x.toModel.unpack = .zero b.sign := by
  rw [Binary.ofFloat?_eq_ofUnpacked?] at exact
  rw [Binary.eq_toUnpacked exact, Binary.toUnpacked_of_empty empty]

theorem unpack_sub (x y : Float) : (x - y).toModel.unpack = unpack Format.binary64
    (pack Format.binary64 (UnpackedFloat.sub Format.binary64 x.toModel.unpack y.toModel.unpack)) :=
  rfl

theorem unpack_mul (x y : Float) : (x * y).toModel.unpack = unpack Format.binary64
    (pack Format.binary64 (UnpackedFloat.mul Format.binary64 x.toModel.unpack y.toModel.unpack)) :=
  rfl

theorem sub_of_empty_left (exactX : Binary.ofFloat? x = some b) (empty : b.mantissa = 0)
    (exactY : Binary.ofFloat? y = some c) (positive : 0 < c.mantissa) : x - y = -y := by
  have representable : Representable y.toModel.unpack := representable_unpack _
  apply eq_of_unpack_eq
  rw [unpack_of_pos exactY positive] at representable
  rw [unpack_neg, unpack_sub, unpack_of_empty exactX empty, unpack_of_pos exactY positive]
  exact unpack_pack (u := .finite (-c.sign) c.mantissa c.exponent positive) representable

theorem sub_of_empty_right (exactX : Binary.ofFloat? x = some b) (positive : 0 < b.mantissa)
    (exactY : Binary.ofFloat? y = some c) (empty : c.mantissa = 0) : x - y = x := by
  have representable : Representable x.toModel.unpack := representable_unpack _
  apply eq_of_unpack_eq
  rw [unpack_of_pos exactX positive] at representable
  rw [unpack_sub, unpack_of_empty exactY empty, unpack_of_pos exactX positive]
  exact unpack_pack representable

/-- A difference of doubles is the double nearest to the exact one. -/
theorem sub_eq_toFloat (exactX : Binary.ofFloat? x = some b) (exactY : Binary.ofFloat? y = some c)
    (distinct : b.value ≠ c.value) : x - y = (b.difference c).toFloat := by
  have nonzero := Binary.value_difference_ne_zero distinct
  rcases Nat.eq_zero_or_pos b.mantissa with emptyB | positiveB
  · have zero : b.value = 0 := Binary.value_of_empty emptyB
    have positiveC : 0 < c.mantissa := by
      refine Nat.pos_of_ne_zero fun emptyC => distinct ?_
      rw [zero, Binary.value_of_empty emptyC]
    have negated : Binary.ofFloat? (-y) = some { c with negative := !c.negative } := by
      rw [Binary.ofFloat?_neg, exactY]
      rfl
    have value : (b.difference c).value = ({ c with negative := !c.negative } : Binary).value := by
      rw [b.value_difference, zero, zero_sub, c.value_negated]
    rw [Binary.toFloat_congr value nonzero, Binary.toFloat_eq negated,
      sub_of_empty_left exactX emptyB exactY positiveC]
  rcases Nat.eq_zero_or_pos c.mantissa with emptyC | positiveC
  · have value : (b.difference c).value = b.value := by
      rw [b.value_difference, Binary.value_of_empty emptyC, sub_zero]
    rw [Binary.toFloat_congr value nonzero, Binary.toFloat_eq exactX,
      sub_of_empty_right exactX positiveB exactY emptyC]
  · apply eq_of_unpack_eq
    rw [unpack_sub, unpack_of_pos exactX positiveB, unpack_of_pos exactY positiveC]
    refine unpack_pack_normalize (fun same => nonzero ?_) _ _
    exact Binary.value_of_empty (Int.natAbs_eq_zero.mpr same)

/-- What is not below a positive double is not rounded to below it. -/
theorem le_value_toFloat (exact : Binary.ofFloat? y = some c) (positive : 0 < c.value)
    (above : c.value ≤ b.value) :
    b.toFloat = infinity ∨ ∃ d, Binary.ofFloat? b.toFloat = some d ∧ c.value ≤ d.value := by
  have unsigned := Binary.negative_of_value_pos (positive.trans_le above)
  have magnitude : c.value ≤ (b.numerator : ℚ) / b.denominator := by
    rw [← Binary.abs_value]
    exact above.trans (le_abs_self _)
  rw [Binary.toFloat, unsigned, signed, if_neg Bool.false_ne_true]
  cases infinite : (nearest b.numerator b.denominator).isInf with
  | true => exact .inl (nearest_of_isInf infinite)
  | false =>
      obtain ⟨d, fraction, -, nearest⟩ := nearest_isNearest b.numerator b.denominator_pos infinite
      exact .inr ⟨d, fraction, nearest.le_value exact magnitude⟩

/-- A product of doubles is the double nearest to the exact one. -/
theorem mul_eq_toFloat (exactX : Binary.ofFloat? x = some b) (exactY : Binary.ofFloat? y = some c)
    (positiveB : 0 < b.mantissa) (positiveC : 0 < c.mantissa) : x * y = (b.product c).toFloat := by
  have positive : 0 < (b.product c).mantissa := Nat.mul_pos positiveB positiveC
  have fine : (b.product c).exponent ≤
      unitExponent (b.product c).numerator (b.product c).denominator := by
    rw [Binary.unitExponent_eq_log2 positive]
    have bits (full : Binary.hiddenBit ≤ (b.product c).mantissa) :
        52 ≤ (b.product c).mantissa.log2 := (Nat.le_log2 positive.ne').mpr full
    rcases (Binary.fits_of_ofFloat? exactX).full with full | leastX
    · have long := bits (full.trans (Nat.le_mul_of_pos_right b.mantissa positiveC))
      omega
    rcases (Binary.fits_of_ofFloat? exactY).full with full | leastY
    · have long := bits (full.trans (Nat.le_mul_of_pos_left c.mantissa positiveB))
      omega
    · have exponent : (b.product c).exponent = b.exponent + c.exponent := rfl
      omega
  apply eq_of_unpack_eq
  rw [unpack_mul, unpack_of_pos exactX positiveB, unpack_of_pos exactY positiveC,
    ← unpack_pack_roundWithAccuracy positive fine, Binary.sign_product]
  rfl

/-- Doubles of one value have no difference. -/
theorem sub_eq_zero (exactX : Binary.ofFloat? x = some b) (exactY : Binary.ofFloat? y = some c)
    (same : b.value = c.value) : (x - y == 0) = true := by
  have equal : (x == y) = true := by
    have below : x ≤ y := (le_iff_value exactX exactY).mpr same.le
    refine ((le_iff_lt_or_eq x y).mp below).resolve_left ?_
    rw [lt_iff_value exactX exactY]
    exact same.not_lt
  obtain ⟨-, -, rfl | ⟨rfl, rfl⟩ | ⟨rfl, rfl⟩⟩ := Float.beq_iff_ne_nan_and_eq.mp equal
  · exact sub_self exactX
  · rfl
  · rfl

/-- A difference that is a double is exact. -/
theorem ofFloat?_sub (exactX : Binary.ofFloat? x = some b) (exactY : Binary.ofFloat? y = some c)
    (exactZ : Binary.ofFloat? z = some d) (value : d.value = b.value - c.value) :
    ∃ e, Binary.ofFloat? (x - y) = some e ∧ e.value = b.value - c.value := by
  by_cases same : b.value = c.value
  · have zero : (⟨false, 0, -1074⟩ : Binary).value = 0 := Binary.value_of_empty rfl
    have negative : (⟨true, 0, -1074⟩ : Binary).value = 0 := Binary.value_of_empty rfl
    rw [sub_eq_zero_of_eq same]
    rcases eq_zero_or_neg_zero (sub_eq_zero exactX exactY same) with positive | negated
    · exact ⟨⟨false, 0, -1074⟩, by rw [positive, Binary.ofFloat?_zero], zero⟩
    · exact ⟨⟨true, 0, -1074⟩, by rw [negated, Binary.ofFloat?_neg_zero], negative⟩
  · have difference : (b.difference c).value = d.value := by rw [b.value_difference, value]
    have exact : x - y = z := by
      rw [sub_eq_toFloat exactX exactY same, ← Binary.toFloat_eq exactZ]
      exact Binary.toFloat_congr difference (Binary.value_difference_ne_zero same)
    exact ⟨d, by rw [exact, exactZ], value⟩

end Number

end Reckoner
