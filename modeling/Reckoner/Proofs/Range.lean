import Reckoner.Proofs.Number

set_option autoImplicit false

namespace Reckoner

open Float.Model (UnpackedFloat Format)
open Float.Model.UnpackedFloat

namespace Number

/-- Halfway between the greatest double and the power of two that would be next. -/
def overflowThreshold : Nat := 1 <<< 1024 - 1 <<< 970

/-- The greatest mantissa, and the exponent that the greatest double has. -/
theorem overflowThreshold_eq :
    (2 * 9007199254740991 + 1) * 1 <<< 971 = 2 * overflowThreshold := by
  decide +kernel

theorem nearestQuotient_le {num den bound : Nat} (below : 2 * num < (2 * bound + 1) * den) :
    nearestQuotient num den ≤ bound := by
  have parts := Nat.div_add_mod num den
  have small : num / den ≤ bound := by
    apply Nat.lt_succ_iff.mp
    apply Nat.div_lt_of_lt_mul
    grind
  have top : num / den = bound → 2 * (num % den) < den := by
    rintro rfl
    grind
  simp only [nearestQuotient]
  split
  · exact small
  · rename_i tie
    rw [Nat.compare_eq_eq] at tie
    omega
  · rename_i above
    rw [Nat.compare_eq_gt] at above
    omega

/-- A tie below an even number is rounded up to it. -/
theorem le_nearestQuotient {num den bound : Nat} (positive : 0 < den) (even : bound % 2 = 0)
    (above : 2 * bound * den ≤ 2 * num + den) : bound ≤ nearestQuotient num den := by
  have parts := Nat.div_add_mod num den
  have rest := Nat.mod_lt num positive
  by_cases reached : bound ≤ num / den
  · simp only [nearestQuotient]
    split <;> omega
  · obtain ⟨gap, rfl⟩ := Nat.exists_eq_add_of_lt (Nat.lt_of_not_le reached)
    have expand : 2 * (num / den + gap + 1) * den =
        2 * (den * (num / den)) + 2 * (gap * den) + 2 * den := by
      grind
    have adjacent : gap = 0 := by
      apply Nat.eq_zero_of_not_pos
      intro apart
      have wide := Nat.le_mul_of_pos_left den apart
      omega
    subst adjacent
    simp only [nearestQuotient]
    split
    · rename_i below
      rw [Nat.compare_eq_lt] at below
      omega
    · omega
    · omega

/-- An integer has no bits below the unit, so the unit follows from its length. -/
theorem unitExponent_one {num : Nat} (positive : num ≠ 0) :
    unitExponent num 1 = (num.log2 : Int) - 52 := by
  have one : (num.log2 : Int) - (Nat.log2 1 : Nat) = num.log2 := by
    rw [show Nat.log2 1 = 0 by decide]
    exact Int.sub_zero _
  have leading : ¬ num <<< (-(num.log2 : Int)).toNat < 1 <<< (num.log2 : Int).toNat := by
    have low := Nat.log2_self_le positive
    rw [show (-(num.log2 : Int)).toNat = 0 by omega, Int.toNat_natCast, Nat.one_shiftLeft]
    exact Nat.not_lt.mpr low
  simp only [unitExponent]
  rw [one, if_neg leading]
  omega

theorem log2_lt_of_lt_shiftLeft {n k : Nat} (positive : n ≠ 0) (below : n < 1 <<< k) :
    n.log2 < k := by
  rw [Nat.log2_lt positive, ← Nat.one_shiftLeft]
  exact below

theorem le_log2_of_shiftLeft_le {n k : Nat} (positive : n ≠ 0) (above : 1 <<< k ≤ n) :
    k ≤ n.log2 := by
  rw [Nat.le_log2 positive, ← Nat.one_shiftLeft]
  exact above

theorem shiftLeft_lt_shiftLeft {x y : Nat} (less : x < y) (k : Nat) : x <<< k < y <<< k := by
  rw [Nat.shiftLeft_eq, Nat.shiftLeft_eq]
  exact Nat.mul_lt_mul_of_pos_right less (Nat.two_pow_pos k)

theorem shiftLeft_le_shiftLeft {x y j k : Nat} (le : x ≤ y) (shift : j ≤ k) :
    x <<< j ≤ y <<< k := by
  rw [Nat.shiftLeft_eq, Nat.shiftLeft_eq]
  exact Nat.mul_le_mul le (Nat.pow_le_pow_right (by decide) shift)

/-- The mantissa of an integer is at most the power of two that rounding may carry it to. -/
theorem nearestQuotient_le_carry (num : Nat) :
    nearestQuotient (num <<< (-((num.log2 : Int) - 52)).toNat)
      (1 <<< ((num.log2 : Int) - 52).toNat) ≤ 9007199254740992 := by
  have high : num < 1 <<< (num.log2 + 1) := by
    rw [Nat.one_shiftLeft]
    exact Nat.lt_log2_self
  have scaled := shiftLeft_lt_shiftLeft high (-((num.log2 : Int) - 52)).toNat
  have shifts : num.log2 + 1 + (-((num.log2 : Int) - 52)).toNat =
      ((num.log2 : Int) - 52).toNat + 53 := by
    omega
  rw [← Nat.shiftLeft_add, shifts, Nat.shiftLeft_add] at scaled
  apply nearestQuotient_le
  omega

/-- Below the threshold the nearest double is finite. -/
theorem nearest_bits_lt {num : Nat} (positive : num ≠ 0) (small : num < overflowThreshold) :
    nearestQuotient (num <<< (-unitExponent num 1).toNat) (1 <<< (unitExponent num 1).toNat) +
      (unitExponent num 1 + 1074).toNat <<< 52 < infinityBits := by
  have size : num.log2 < 1024 :=
    log2_lt_of_lt_shiftLeft positive (Nat.lt_trans small (by decide +kernel))
  have infinity : infinityBits = 2047 * 4503599627370496 := by decide
  have carried := nearestQuotient_le_carry num
  rw [unitExponent_one positive, infinity, Nat.shiftLeft_eq _ 52]
  by_cases top : num.log2 = 1023
  · -- A carry out of the greatest exponent would be infinite, but it takes the threshold.
    have shifts : (-((num.log2 : Int) - 52)).toNat = 0 ∧ ((num.log2 : Int) - 52).toNat = 971 := by
      omega
    have mantissa : nearestQuotient (num <<< 0) (1 <<< 971) ≤ 9007199254740991 := by
      apply nearestQuotient_le
      rw [overflowThreshold_eq, Nat.shiftLeft_zero]
      exact Nat.mul_lt_mul_of_pos_left small (by decide)
    rw [shifts.1, shifts.2]
    omega
  · omega

/-- The mantissa of a large integer is full. -/
theorem hiddenBit_le_nearestQuotient {num : Nat} (large : 52 ≤ num.log2) :
    Binary.hiddenBit ≤ nearestQuotient num (1 <<< (num.log2 - 52)) := by
  have positive : num ≠ 0 := by
    rintro rfl
    exact absurd large (by decide)
  have low : 1 <<< (num.log2 - 52 + 52) ≤ num := by
    rw [Nat.sub_add_cancel large, Nat.one_shiftLeft]
    exact Nat.log2_self_le positive
  rw [Nat.shiftLeft_add, Nat.shiftLeft_eq _ 52] at low
  apply le_nearestQuotient
  · rw [Nat.one_shiftLeft]
    exact Nat.two_pow_pos _
  · decide
  · simp only [Binary.hiddenBit]
    omega

/-- From the threshold on the bits reach those of infinity. -/
theorem infinityBits_le_bits {num : Nat} (large : overflowThreshold ≤ num) :
    infinityBits ≤ nearestQuotient (num <<< (-unitExponent num 1).toNat)
      (1 <<< (unitExponent num 1).toNat) + (unitExponent num 1 + 1074).toNat <<< 52 := by
  have infinity : infinityBits = 2047 * 4503599627370496 := by decide
  have positive : num ≠ 0 := by
    rintro rfl
    exact absurd large (by decide +kernel)
  have size : 1023 ≤ num.log2 :=
    le_log2_of_shiftLeft_le positive (Nat.le_trans (by decide +kernel) large)
  have full := hiddenBit_le_nearestQuotient (Nat.le_trans (by decide) size)
  have shifts : (-((num.log2 : Int) - 52)).toNat = 0 ∧
      ((num.log2 : Int) - 52).toNat = num.log2 - 52 := by
    omega
  rw [unitExponent_one positive, infinity, Nat.shiftLeft_eq _ 52, shifts.1, shifts.2,
    Nat.shiftLeft_zero]
  simp only [Binary.hiddenBit] at full
  by_cases top : num.log2 = 1023
  · -- With the greatest exponent it takes a carry, and at the threshold there is one.
    have carried : 9007199254740992 ≤ nearestQuotient num (1 <<< 971) := by
      apply le_nearestQuotient (by decide +kernel) (by decide)
      have threshold := overflowThreshold_eq
      omega
    rw [show num.log2 - 52 = 971 by omega]
    omega
  · omega

theorem isInf_ofBits {bits : Nat} (small : bits < infinityBits) :
    (Float.ofBits bits.toUInt64).isInf = false := by
  change (Float.ofBits bits.toUInt64).toModel.unpack.isInf = false
  rw [unpack_ofBits]
  have finite : @unpackExponent Format.binary64 bits.toUInt64.toBitVec ≠ -1#11 := by
    intro same
    have field := congrArg BitVec.toNat same
    simp [unpackExponent, infinityBits, Nat.shiftRight_eq_div_pow] at field small
    omega
  delta unpack
  dsimp only
  rw [if_neg finite]
  by_cases least : @unpackExponent Format.binary64 bits.toUInt64.toBitVec = 0#11
  · rw [if_pos least]
    by_cases empty : @unpackMantissa Format.binary64 bits.toUInt64.toBitVec = 0#52
    · rw [dif_pos empty]
      rfl
    · rw [dif_neg empty]
      rfl
  · rw [if_neg least]
    rfl

theorem isInf_nearest {num : Nat} (small : num < overflowThreshold) :
    (nearest num 1).isInf = false := by
  unfold nearest
  split
  · exact isInf_ofBits (by decide)
  · rename_i positive
    have below := nearest_bits_lt positive small
    dsimp only
    rw [Nat.min_eq_left (Nat.le_of_lt below)]
    exact isInf_ofBits below

theorem isInf_nearest_iff {num : Nat} : (nearest num 1).isInf = true ↔ overflowThreshold ≤ num := by
  constructor
  · intro infinite
    apply Nat.le_of_not_lt
    intro small
    rw [isInf_nearest small] at infinite
    cases infinite
  · intro large
    have positive : num ≠ 0 := by
      rintro rfl
      exact absurd large (by decide +kernel)
    simp only [nearest]
    rw [if_neg positive, Nat.min_eq_right (infinityBits_le_bits large)]
    decide +kernel

theorem isInf_ofInt (n : Int) : (ofInt n).isInf = (nearest n.natAbs 1).isInf := by
  unfold ofInt signed
  split
  · exact isInf_neg _
  · rfl

/-- An integer has a nearest double exactly if it is below the threshold. -/
theorem ofInt?_eq_none_iff {n : Int} : ofInt? n = none ↔ overflowThreshold ≤ n.natAbs := by
  rw [← isInf_nearest_iff, ← isInf_ofInt]
  unfold ofInt?
  split
  · simp [*]
  · simp [*]

end Number

namespace Binary

theorem mantissa_exponent_le {x : Float} {b : Binary} (exact : ofFloat? x = some b) :
    b.mantissa ≤ 9007199254740991 ∧ b.exponent ≤ 971 := by
  have fraction := Nat.mod_lt x.toBits.toNat (show 0 < hiddenBit by decide)
  have field := Nat.mod_lt (x.toBits.toNat / hiddenBit) (show 0 < 0x800 by decide)
  simp only [hiddenBit] at fraction field
  simp only [ofFloat?] at exact
  split at exact
  · cases exact
  · split at exact
    · cases exact
      simp only [hiddenBit] at *
      omega
    · cases exact
      simp only [hiddenBit] at *
      omega

/-- The greatest double is a good deal below the threshold. -/
theorem numerator_lt {x : Float} {b : Binary} (exact : ofFloat? x = some b) :
    b.numerator + 1 < Number.overflowThreshold := by
  obtain ⟨mantissa, exponent⟩ := mantissa_exponent_le exact
  have shift : b.exponent.toNat ≤ 971 := by omega
  have greatest : b.numerator ≤ 9007199254740991 <<< 971 :=
    Number.shiftLeft_le_shiftLeft mantissa shift
  have room : 9007199254740991 <<< 971 + 1 < Number.overflowThreshold := by decide +kernel
  omega

theorem denominator_pos (b : Binary) : 0 < b.denominator := by
  unfold denominator
  rw [Nat.one_shiftLeft]
  exact Nat.two_pow_pos _

theorem natAbs_signedNumerator (b : Binary) : b.signedNumerator.natAbs = b.numerator := by
  unfold signedNumerator
  split <;> omega

theorem natAbs_floor_le (b : Binary) : b.floor.natAbs ≤ b.numerator := by
  unfold floor
  rw [← b.natAbs_signedNumerator]
  exact Int.natAbs_ediv_le_natAbs _ _

theorem natAbs_ceil_le (b : Binary) : b.ceil.natAbs ≤ b.numerator := by
  unfold ceil
  rw [← b.natAbs_signedNumerator, Int.natAbs_neg, ← Int.natAbs_neg b.signedNumerator]
  exact Int.natAbs_ediv_le_natAbs _ _

theorem natAbs_nearestEven_le (b : Binary) : b.nearestEven.natAbs ≤ b.numerator := by
  have rounded : Number.nearestQuotient b.numerator b.denominator ≤ b.numerator := by
    apply Number.nearestQuotient_le
    have grows := Nat.le_mul_of_pos_right (2 * b.numerator + 1) b.denominator_pos
    omega
  unfold nearestEven
  dsimp only
  split <;> omega

/-- Whichever way a double is rounded to an integer, the integer has a nearest double. -/
theorem ofInt?_rounded_isSome {x : Float} {b : Binary} (exact : ofFloat? x = some b) :
    ∀ n ∈ [b.floor, b.floor + 1, b.ceil, b.nearestEven], (Number.ofInt? n).isSome = true := by
  have room := numerator_lt exact
  have floor := b.natAbs_floor_le
  have ceil := b.natAbs_ceil_le
  have nearest := b.natAbs_nearestEven_le
  intro n rounded
  rw [Option.isSome_iff_ne_none, ne_eq, Number.ofInt?_eq_none_iff]
  simp only [List.mem_cons, List.not_mem_nil, or_false] at rounded
  rcases rounded with rfl | rfl | rfl | rfl <;> omega

end Binary

end Reckoner
