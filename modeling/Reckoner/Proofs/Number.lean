import Mathlib
import Reckoner.Arith.Tolerance

set_option autoImplicit false

namespace Reckoner

open Float.Model (UnpackedFloat Format)
open Float.Model.UnpackedFloat

namespace Number

/-- The finite numbers that bits stand for have a full mantissa, or the least exponent. -/
def Representable : UnpackedFloat → Prop
  | .finite _ mantissa exponent _ =>
    mantissa < 2 * Binary.hiddenBit ∧ -1074 ≤ exponent ∧ exponent ≤ 971 ∧
      (Binary.hiddenBit ≤ mantissa ∨ exponent = -1074)
  | _ => True

theorem toNat_append_hiddenBit (fraction : BitVec 52) :
    (1#1 ++ fraction).toNat = Binary.hiddenBit + fraction.toNat := by
  rw [BitVec.toNat_append, ← Nat.shiftLeft_add_eq_or_of_lt fraction.isLt]
  rfl

theorem toNat_exponent_lt {field : BitVec 11} (special : field ≠ -1#11) : field.toNat < 2047 := by
  have wide := field.isLt
  have other : field.toNat ≠ 2047 := fun same => special (BitVec.eq_of_toNat_eq same)
  omega

theorem pack_finite (sign : Sign) {mantissa : Nat} (exponent : Int) (positive : 0 < mantissa) :
    pack Format.binary64 (.finite sign mantissa exponent positive) =
      if 2048 ≤ (exponent + 1023 + 52).toNat + 1 then
        packedInfinity Format.binary64 sign
      else if mantissa.log2 + 1 = 53 then
        packComponents Format.binary64 sign (.ofNat 11 (exponent + 1023 + 52).toNat)
          (.ofNat 52 mantissa)
      else
        packComponents Format.binary64 sign 0#11 (.ofNat 52 mantissa) :=
  rfl

theorem finite_congr {sign : Sign} {m m' : Nat} {e e' : Int} {positive : 0 < m}
    {positive' : 0 < m'} (mantissa : m = m') (exponent : e = e') :
    UnpackedFloat.finite sign m e positive = .finite sign m' e' positive' := by
  subst mantissa exponent
  rfl

theorem representable_unpack (bits : BitVec Format.binary64.numBits) :
    Representable (unpack Format.binary64 bits) := by
  have bias : (Format.binary64.exponentBias : Int) = 1023 := rfl
  have width : (unpackMantissa bits).toNat < 4503599627370496 := (unpackMantissa bits).isLt
  delta unpack
  dsimp only
  by_cases special : unpackExponent bits = -1#11
  · rw [if_pos special]
    split <;> trivial
  · have small := toNat_exponent_lt special
    rw [if_neg special]
    by_cases least : unpackExponent bits = 0#11
    · have zero : (unpackExponent bits).toNat = 0 := by rw [least, BitVec.toNat_zero]
      rw [if_pos least]
      by_cases empty : unpackMantissa bits = 0#52
      · rw [dif_pos empty]
        trivial
      · rw [dif_neg empty]
        dsimp only [Representable, Binary.hiddenBit]
        omega
    · have positive : (unpackExponent bits).toNat ≠ 0 :=
        fun same => least (BitVec.eq_of_toNat_eq same)
      rw [if_neg least]
      dsimp only [Representable]
      rw [toNat_append_hiddenBit]
      dsimp only [Binary.hiddenBit]
      omega

theorem unpack_pack_normal {sign : Sign} {mantissa : Nat} {exponent : Int} (positive : 0 < mantissa)
    (full : Binary.hiddenBit ≤ mantissa) (width : mantissa < 2 * Binary.hiddenBit)
    (least : -1074 ≤ exponent) (greatest : exponent ≤ 971) :
    unpack Format.binary64 (pack Format.binary64 (.finite sign mantissa exponent positive)) =
      .finite sign mantissa exponent positive := by
  have bias : (Format.binary64.exponentBias : Int) = 1023 := rfl
  have length : mantissa.log2 = 52 :=
    (Nat.log2_eq_iff (Nat.pos_iff_ne_zero.mp positive)).mpr ⟨full, width⟩
  have field : (BitVec.ofNat 11 (exponent + 1023 + 52).toNat).toNat = (exponent + 1075).toNat := by
    rw [BitVec.toNat_ofNat]
    omega
  have fraction : (1#1 ++ BitVec.ofNat 52 mantissa).toNat = mantissa := by
    rw [toNat_append_hiddenBit, BitVec.toNat_ofNat]
    simp only [Binary.hiddenBit] at *
    omega
  have special : BitVec.ofNat 11 (exponent + 1023 + 52).toNat ≠ -1#11 := by
    intro same
    rw [same] at field
    change 2047 = _ at field
    omega
  have zero : BitVec.ofNat 11 (exponent + 1023 + 52).toNat ≠ 0#11 := by
    intro same
    rw [same, BitVec.toNat_zero] at field
    omega
  rw [pack_finite, if_neg (by omega), if_pos (by rw [length])]
  delta unpack
  dsimp only
  rw [unpackExponent_packComponents, if_neg special, if_neg zero, unpackSign_packComponents,
    Sign.ofBitVec_toBitVec]
  apply finite_congr
  · rw [unpackMantissa_packComponents]
    exact fraction
  · omega

theorem unpack_pack_subnormal {sign : Sign} {mantissa : Nat} (positive : 0 < mantissa)
    (small : mantissa < Binary.hiddenBit) :
    unpack Format.binary64 (pack Format.binary64 (.finite sign mantissa (-1074) positive)) =
      .finite sign mantissa (-1074) positive := by
  have length : ¬ mantissa.log2 + 1 = 53 := by
    have short : mantissa.log2 < 52 := (Nat.log2_lt (Nat.pos_iff_ne_zero.mp positive)).mpr small
    omega
  have fraction : (BitVec.ofNat 52 mantissa).toNat = mantissa := by
    rw [BitVec.toNat_ofNat]
    exact Nat.mod_eq_of_lt small
  have nonzero : BitVec.ofNat 52 mantissa ≠ 0#52 := by
    intro same
    rw [same, BitVec.toNat_zero] at fraction
    omega
  rw [pack_finite, if_neg (by decide), if_neg length]
  delta unpack
  dsimp only
  rw [unpackExponent_packComponents, if_neg (by decide), if_pos rfl, unpackSign_packComponents,
    Sign.ofBitVec_toBitVec, dif_neg]
  · apply finite_congr
    · rw [unpackMantissa_packComponents]
      exact fraction
    · rfl
  · rw [unpackMantissa_packComponents]
    exact nonzero

/-- Packing loses nothing. -/
theorem unpack_pack {u : UnpackedFloat} (representable : Representable u) :
    unpack Format.binary64 (pack Format.binary64 u) = u := by
  cases u with
  | notANumber => rfl
  | infinity sign => cases sign <;> rfl
  | zero sign => cases sign <;> rfl
  | finite sign mantissa exponent positive =>
      obtain ⟨width, least, greatest, full⟩ := representable
      by_cases normal : Binary.hiddenBit ≤ mantissa
      · exact unpack_pack_normal positive normal width least greatest
      · obtain rfl := full.resolve_left normal
        exact unpack_pack_subnormal positive (Nat.lt_of_not_le normal)

theorem unpack_ofBits (bits : UInt64) :
    (Float.ofBits bits).toModel.unpack = unpack Format.binary64 bits.toBitVec :=
  unpack_pack (representable_unpack bits.toBitVec)

theorem unpack_neg (x : Float) : (-x).toModel.unpack = x.toModel.unpack.neg := by
  refine unpack_pack (u := x.toModel.unpack.neg) ?_
  have representable : Representable x.toModel.unpack := representable_unpack _
  cases form : x.toModel.unpack with
  | finite sign mantissa exponent positive =>
      rw [form] at representable
      exact representable
  | _ => trivial

theorem unpack_abs (x : Float) : x.abs.toModel.unpack = x.toModel.unpack.abs := by
  refine unpack_pack (u := x.toModel.unpack.abs) ?_
  have representable : Representable x.toModel.unpack := representable_unpack _
  cases form : x.toModel.unpack with
  | finite sign mantissa exponent positive =>
      rw [form] at representable
      exact representable
  | _ => trivial

theorem isInf_neg (x : Float) : (-x).isInf = x.isInf := by
  change (-x).toModel.unpack.isInf = x.toModel.unpack.isInf
  rw [unpack_neg]
  cases x.toModel.unpack <;> rfl

theorem unpack_zero : (0 : Float).toModel.unpack = .zero .positive := rfl

theorem lt_iff (x y : Float) :
    x < y ↔ UnpackedFloat.lt x.toModel.unpack y.toModel.unpack = true := by
  change decide (x.toModel < y.toModel) = true ↔ _
  rw [decide_eq_true_iff]
  exact Iff.rfl

theorem le_iff (x y : Float) :
    x ≤ y ↔ UnpackedFloat.le x.toModel.unpack y.toModel.unpack = true := by
  change decide (x.toModel ≤ y.toModel) = true ↔ _
  rw [decide_eq_true_iff]
  exact Iff.rfl

/-- No magnitude is below zero. -/
theorem not_abs_lt_zero (x : Float) : ¬ x.abs < 0 := by
  rw [lt_iff, unpack_abs, unpack_zero]
  cases x.toModel.unpack <;> exact nofun

theorem le_iff_lt_or_eq (x y : Float) : x ≤ y ↔ x < y ∨ (x == y) = true := by
  rw [lt_iff, le_iff]
  change Option.any _ (UnpackedFloat.compare x.toModel.unpack y.toModel.unpack) = true ↔
    (UnpackedFloat.compare x.toModel.unpack y.toModel.unpack == some .lt) = true ∨
      (UnpackedFloat.compare x.toModel.unpack y.toModel.unpack == some .eq) = true
  cases UnpackedFloat.compare x.toModel.unpack y.toModel.unpack with
  | none => decide
  | some order => cases order <;> decide

theorem isInf_eq_false_of_isFinite {x : Float} (finite : x.isFinite = true) : x.isInf = false := by
  change x.toModel.unpack.isFinite = true at finite
  change x.toModel.unpack.isInf = false
  cases form : x.toModel.unpack with
  | infinity sign =>
      rw [form] at finite
      cases finite
  | _ => rfl

theorem eq_zero_or_neg_zero {x : Float} (zero : (x == 0) = true) : x = 0 ∨ x = -0 := by
  obtain ⟨_, _, same | ⟨same, _⟩ | ⟨negated, _⟩⟩ := Float.beq_iff_ne_nan_and_eq.mp zero
  · exact Or.inl same
  · exact Or.inl same
  · exact Or.inr negated

/-- Both zeros have the magnitude zero. -/
theorem abs_of_eq_zero {x : Float} (zero : (x == 0) = true) : x.abs = 0 := by
  rcases eq_zero_or_neg_zero zero with rfl | rfl
  · rfl
  · rfl

private theorem bits_of_fields_zero {bits : Nat} (bound : bits < 18446744073709551616)
    (fraction : bits % Binary.hiddenBit = 0) (field : bits / Binary.hiddenBit % 0x800 = 0) :
    bits = 0 ∨ bits = 0x8000000000000000 := by
  simp only [Binary.hiddenBit] at fraction field
  omega

/-- A double whose exact fraction has no mantissa is one of the zeros. -/
theorem eq_zero_of_mantissa {x : Float} {b : Binary} (exact : Binary.ofFloat? x = some b)
    (empty : b.mantissa = 0) : (x == 0) = true := by
  simp only [Binary.ofFloat?] at exact
  split at exact
  · cases exact
  · split at exact
    · rename_i field
      cases exact
      rcases bits_of_fields_zero x.toBits.toNat_lt empty field with positive | negative
      · have same : x = 0 := Float.toBits_inj.mp (UInt64.toNat_inj.mp positive)
        rw [same]
        rfl
      · have bits : (-0 : Float).toBits.toNat = 0x8000000000000000 := by decide
        have same : x = -0 := Float.toBits_inj.mp (UInt64.toNat_inj.mp (negative.trans bits.symm))
        rw [same]
        rfl
    · cases exact
      simp [Binary.hiddenBit] at empty

end Number

/-- What is zero counts as zero, unless the tolerance is negative or NaN. -/
theorem Tolerance.isZero_of_eq_zero {t : Tolerance} (regular : 0 ≤ t.bound) {x : Float}
    (zero : (x == 0) = true) : t.isZero x = true := by
  rw [Tolerance.isZero, Number.abs_of_eq_zero zero]
  exact decide_eq_true regular

end Reckoner
