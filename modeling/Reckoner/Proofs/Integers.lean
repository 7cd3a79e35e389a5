import Reckoner.Proofs.Null
import Reckoner.Proofs.Order

set_option autoImplicit false

namespace Reckoner

open Float.Model (UnpackedFloat Format)

theorem Number.RoundsTo.self (n : Nat) : RoundsTo n n :=
  ⟨by simp, by simp⟩

theorem Number.log2_shiftLeft {n : Nat} (positive : 0 < n) (k : Nat) :
    (n <<< k).log2 = n.log2 + k := by
  have low := Nat.log2_self_le positive.ne'
  have high : n < 2 ^ (n.log2 + 1) := Nat.lt_log2_self
  have step := Nat.two_pow_pos k
  rw [Nat.shiftLeft_eq, Nat.log2_eq_iff (Nat.mul_pos positive step).ne', Nat.pow_add,
    Nat.add_right_comm, Nat.pow_add]
  exact ⟨Nat.mul_le_mul_right _ low, Nat.mul_lt_mul_of_pos_right high step⟩

namespace Binary

theorem abs_value (b : Binary) : |b.value| = (b.numerator : ℚ) / b.denominator := by
  have nonneg : (0 : ℚ) ≤ b.mantissa * 2 ^ b.exponent := by positivity
  rw [value_eq, numerator_div_denominator]
  split
  · rw [abs_neg, abs_of_nonneg nonneg]
  · exact abs_of_nonneg nonneg

/-- The sign of a fraction is the sign of its value. -/
theorem value_eq_signed (b : Binary) : b.value = if b.negative then -|b.value| else |b.value| := by
  rw [abs_value, numerator_div_denominator]
  exact b.value_eq

theorem value_withSign (b : Binary) (negative : Bool) :
    ({ b with negative := negative } : Binary).value =
      if negative then -|b.value| else |b.value| := by
  rw [value_eq, abs_value, numerator_div_denominator]

theorem value_magnitude (b : Binary) :
    ({ b with negative := false } : Binary).value = |b.value| := by
  rw [value_withSign, if_neg Bool.false_ne_true]

theorem value_negated (b : Binary) :
    ({ b with negative := !b.negative } : Binary).value = -b.value := by
  rw [value_eq, value_eq]
  cases b.negative <;> simp

/-- The fraction of a mantissa that comes with its sign. -/
theorem value_ofSigned (n e : Int) : (⟨n < 0, n.natAbs, e⟩ : Binary).value = n * 2 ^ e := by
  rw [value_eq, Nat.cast_natAbs, Int.cast_abs]
  by_cases negative : n < 0
  · have below : (n : ℚ) < 0 := by exact_mod_cast negative
    rw [if_pos (by simpa using negative), abs_of_neg below, neg_mul, neg_neg]
  · have above : (0 : ℚ) ≤ n := by exact_mod_cast Int.not_lt.mp negative
    rw [if_neg (by simpa using negative), abs_of_nonneg above]

theorem negative_of_value_pos {b : Binary} (positive : 0 < b.value) : b.negative = false := by
  rw [b.value_eq_signed] at positive
  cases negative : b.negative with
  | false => rfl
  | true =>
      rw [if_pos negative] at positive
      have nonneg := abs_nonneg b.value
      linarith

theorem floor_eq (b : Binary) : b.floor = ⌊b.value⌋ := by
  rw [floor, value, Rat.floor_intCast_div_natCast]

def lengthened (b : Binary) (zeros : Nat) : Binary :=
  ⟨b.negative, b.mantissa <<< zeros, b.exponent - zeros⟩

theorem value_lengthened (b : Binary) (zeros : Nat) : (b.lengthened zeros).value = b.value := by
  have magnitude : ((b.mantissa <<< zeros : Nat) : ℚ) * 2 ^ (b.exponent - zeros) =
      b.mantissa * 2 ^ b.exponent := by
    rw [Nat.shiftLeft_eq, zpow_sub₀ two_ne_zero, zpow_natCast]
    push_cast
    field_simp
  rw [value_eq, value_eq]
  simp only [lengthened, magnitude]

/-- A fraction whose mantissa has up to fifty-three bits is the value of a double, if the exponent
is within the range. -/
theorem exists_float {b : Binary} (short : b.mantissa < 2 * hiddenBit) (least : -1074 ≤ b.exponent)
    (greatest : b.exponent ≤ 971) : ∃ x c, ofFloat? x = some c ∧ c.value = b.value := by
  rcases Nat.eq_zero_or_pos b.mantissa with zero | positive
  · refine ⟨0, ⟨false, 0, -1074⟩, ofFloat?_zero, ?_⟩
    simp [value_eq, zero]
  -- Zeros are put after the mantissa as long as there is room.
  have bits : b.mantissa.log2 < 53 := (Nat.log2_lt positive.ne').mpr short
  have places : ∃ zeros : Nat, b.mantissa.log2 + zeros ≤ 52 ∧ -1074 ≤ b.exponent - zeros ∧
      (b.mantissa.log2 + zeros = 52 ∨ b.exponent - zeros = -1074) :=
    ⟨min (52 - b.mantissa.log2) (b.exponent + 1074).toNat, by omega⟩
  obtain ⟨zeros, room, stillLeast, filled⟩ := places
  have length : (b.mantissa <<< zeros).log2 = b.mantissa.log2 + zeros :=
    Number.log2_shiftLeft positive zeros
  have long : 0 < b.mantissa <<< zeros := by
    rw [Nat.shiftLeft_eq]
    positivity
  have fits : (⟨false, b.mantissa <<< zeros, b.exponent - zeros⟩ : Binary).Fits := by
    refine ⟨?_, stillLeast, by dsimp only; omega, filled.imp_left fun full => ?_⟩
    · exact (Nat.log2_lt (k := 53) long.ne').mp (by omega)
    · exact (Nat.le_log2 (k := 52) long.ne').mp (by omega)
  have exact := ofFloat?_signed fits.ofFloat?_magnitudeBits rfl b.negative
  refine ⟨_, _, exact, ?_⟩
  exact b.value_lengthened zeros

/-- The nearest integer to an integer is the integer itself. -/
theorem nearestEven_of_value {b : Binary} {n : Int} (value : b.value = n) : b.nearestEven = n := by
  have magnitude : (b.numerator : ℚ) / b.denominator = n.natAbs := by
    rw [← abs_value, value, Nat.cast_natAbs, Int.cast_abs]
  have rounds := Number.nearestQuotient_roundsTo b.numerator b.denominator_pos
  rw [magnitude] at rounds
  have rounded : Number.nearestQuotient b.numerator b.denominator = n.natAbs :=
    rounds.unique (.self _)
  have signed := b.value_eq_signed
  rw [value] at signed
  simp only [nearestEven, rounded]
  cases negative : b.negative with
  | true =>
      rw [if_pos negative] at signed
      have below : (n : ℚ) ≤ 0 := by
        rw [signed]
        exact neg_nonpos.mpr (abs_nonneg _)
      have below : n ≤ 0 := by exact_mod_cast below
      rw [if_pos rfl]
      omega
  | false =>
      rw [if_neg (by rw [negative]; exact Bool.false_ne_true)] at signed
      have above : (0 : ℚ) ≤ n := by
        rw [signed]
        exact abs_nonneg _
      have above : 0 ≤ n := by exact_mod_cast above
      rw [if_neg Bool.false_ne_true]
      omega

theorem value_eq_nearestEven {b : Binary} (whole : 0 ≤ b.exponent) : b.value = b.nearestEven := by
  have one : b.denominator = 1 := by
    rw [denominator, show (-b.exponent).toNat = 0 by omega, Nat.shiftLeft_zero]
  have integer : b.value = b.signedNumerator := by rw [value, one, Nat.cast_one, div_one]
  rw [nearestEven_of_value integer, integer]

theorem abs_sub_nearestEven_le (b : Binary) : |b.value - b.nearestEven| ≤ 1 / 2 := by
  have near := (Number.nearestQuotient_roundsTo b.numerator b.denominator_pos).near
  rw [← abs_value] at near
  rw [b.value_eq_signed]
  simp only [nearestEven]
  cases b.negative with
  | true =>
      rw [if_pos rfl, if_pos rfl, Int.cast_neg, Int.cast_natCast, ← neg_sub', abs_neg]
      exact near
  | false => exact near

/-- A fraction with places after the point is below `2 ^ 52`. -/
theorem abs_value_lt_of_exponent_neg {b : Binary} (width : b.mantissa < 2 * hiddenBit)
    (places : b.exponent < 0) : |b.value| < 4503599627370496 := by
  have low := lt_of_exponent_lt width places
  rw [abs_value, numerator_div_denominator]
  norm_num at low
  exact low

/-- The sign of a fraction is that of the nearest integer, unless this is zero. -/
theorem nearestEven_lt_zero_iff {b : Binary} (nonzero : b.nearestEven ≠ 0) :
    b.nearestEven < 0 ↔ b.value < 0 := by
  have positive : 0 < |b.value| := by
    apply abs_pos.mpr
    intro zero
    exact nonzero (nearestEven_of_value (n := 0) (by rw [zero, Int.cast_zero]))
  rw [b.value_eq_signed]
  simp only [nearestEven] at nonzero ⊢
  cases b.negative with
  | true =>
      simp only [if_true] at nonzero ⊢
      refine iff_of_true (by omega) (by linarith)
  | false =>
      simp only [if_false, Bool.false_eq_true] at nonzero ⊢
      refine iff_of_false (by omega) (by linarith)

end Binary

namespace Number

/-- The sign of a finite double is that of its value. -/
theorem lt_zero_iff {x : Float} {b : Binary} (exact : Binary.ofFloat? x = some b) :
    x < 0 ↔ b.value < 0 := by
  have zero : (⟨false, 0, -1074⟩ : Binary).value = 0 := by simp [Binary.value_eq]
  rw [lt_iff_value exact Binary.ofFloat?_zero, zero]

/-- The difference of a double and itself is zero if the double is finite, and NaN otherwise. -/
theorem isNull_sub_self (x : Float) : IsNull x.isFinite (x - x) := by
  have null : Null x.isFinite
      (UnpackedFloat.sub Format.binary64 x.toModel.unpack x.toModel.unpack) := by
    change Null x.toModel.unpack.isFinite _
    generalize x.toModel.unpack = u
    cases u with
    | notANumber => exact .nan
    | infinity sign => cases sign <;> exact .nan
    | zero sign => exact Null.sub (.zero sign) (.zero sign) Format.binary64
    | finite sign mantissa exponent positive =>
        simp only [UnpackedFloat.sub, Int.sub_self]
        exact .zero .positive
  exact null.unpack_pack

/-- A finite double is the same as itself. -/
theorem sub_self {x : Float} {b : Binary} (exact : Binary.ofFloat? x = some b) :
    (x - x == 0) = true := by
  rw [(isNull_sub_self x).beq_zero]
  exact Binary.isFinite_of_ofFloat? exact

/-- Some double stands for the integer. -/
def IsExact (n : Int) : Prop :=
  ∃ x b, Binary.ofFloat? x = some b ∧ b.value = n

theorem IsExact.neg {n : Int} (exact : IsExact n) : IsExact (-n) := by
  obtain ⟨x, b, fraction, value⟩ := exact
  refine ⟨-x, { b with negative := !b.negative }, ?_, ?_⟩
  · rw [Binary.ofFloat?_neg, fraction]
    rfl
  · rw [Binary.value_negated, value, Int.cast_neg]

/-- The double nearest to an integer stands for it if any double does. -/
theorem IsExact.ofFloat?_ofInt {n : Int} (exact : IsExact n) :
    ∃ b, Binary.ofFloat? (ofInt n) = some b ∧ b.value = n := by
  obtain ⟨x, b, fraction, value⟩ := exact
  have magnitude : nearest n.natAbs 1 = x.abs := by
    rw [← Binary.nearest_eq_abs fraction]
    apply nearest_congr one_pos b.denominator_pos
    rw [← Binary.abs_value, value, Nat.cast_natAbs, Int.cast_abs, Nat.cast_one, div_one]
  refine ⟨{ b with negative := n < 0 }, ?_, ?_⟩
  · rw [ofInt, magnitude]
    exact Binary.ofFloat?_signed (Binary.ofFloat?_magnitude fraction) rfl _
  · rw [Binary.value_withSign, value]
    by_cases below : n < 0
    · have cast : (n : ℚ) < 0 := by exact_mod_cast below
      rw [if_pos (by simpa using below), abs_of_neg cast, neg_neg]
    · have cast : (0 : ℚ) ≤ n := by exact_mod_cast Int.not_lt.mp below
      rw [if_neg (by simpa using below), abs_of_nonneg cast]

/-- Integers of up to fifty-three bits are exact. -/
theorem isExact_of_natAbs_lt {n : Int} (small : n.natAbs < 2 * Binary.hiddenBit) : IsExact n := by
  obtain ⟨x, b, exact, value⟩ := Binary.exists_float (b := ⟨n < 0, n.natAbs, 0⟩) small
    (show (-1074 : Int) ≤ 0 by decide) (show (0 : Int) ≤ 971 by decide)
  refine ⟨x, b, exact, ?_⟩
  rw [value, Binary.value_ofSigned, zpow_zero, mul_one]

/-- An integer less than one away from a double is exact: large doubles are integers already. -/
theorem isExact_of_near {x : Float} {b : Binary} (exact : Binary.ofFloat? x = some b) {n : Int}
    (near : |b.value - n| < 1) : IsExact n := by
  by_cases whole : 0 ≤ b.exponent
  · have integer := Binary.value_eq_nearestEven whole
    rw [integer] at near
    have near : |b.nearestEven - n| < 1 := by exact_mod_cast near
    rw [sub_eq_zero.mp (Int.abs_lt_one_iff.mp near)] at integer
    exact ⟨x, b, exact, integer⟩
  · have width := (Binary.fits_of_ofFloat? exact).width
    have low := Binary.abs_value_lt_of_exponent_neg width (not_le.mp whole)
    have bound : |(n : ℚ)| < 4503599627370497 := by
      have triangle := abs_sub_abs_le_abs_sub (n : ℚ) b.value
      rw [abs_sub_comm] at triangle
      linarith
    have bound : |n| < 4503599627370497 := by exact_mod_cast bound
    apply isExact_of_natAbs_lt
    rw [Int.abs_eq_natAbs] at bound
    simp only [Binary.hiddenBit]
    omega

/-- Rounding a double to an integer gives an exact one. -/
theorem isExact_nearestEven {x : Float} {b : Binary} (exact : Binary.ofFloat? x = some b) :
    IsExact b.nearestEven :=
  isExact_of_near exact (b.abs_sub_nearestEven_le.trans_lt one_half_lt_one)

end Number

namespace Tolerance

variable {t : Tolerance}

/-- An exact integer counts as itself. -/
theorem integer?_ofInt (regular : 0 ≤ t.bound) {n : Int} (exact : Number.IsExact n) :
    t.integer? (Number.ofInt n) = some n := by
  obtain ⟨b, fraction, value⟩ := exact.ofFloat?_ofInt
  have zero := t.isZero_of_eq_zero regular (Number.sub_self fraction)
  simp only [integer?, fraction, Binary.nearestEven_of_value value, zero, if_true]

/-- The integer that a double counts as is exact, and has its sign unless it is zero. -/
theorem exact_of_integer? {x : Float} {n : Int} (counts : t.integer? x = some n) :
    Number.IsExact n ∧ (n ≠ 0 → (x < 0 ↔ n < 0)) := by
  unfold integer? at counts
  split at counts
  · cases counts
  · rename_i b fraction
    split at counts
    · cases counts
      refine ⟨Number.isExact_nearestEven fraction, fun nonzero => ?_⟩
      rw [Number.lt_zero_iff fraction, Binary.nearestEven_lt_zero_iff nonzero]
    · cases counts

end Tolerance

end Reckoner
