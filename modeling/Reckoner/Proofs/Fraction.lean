import Reckoner.Proofs.Range

set_option autoImplicit false

namespace Reckoner

open Float.Model (UnpackedFloat Format)
open Float.Model.UnpackedFloat

namespace Number

theorem eq_of_unpack_eq {x y : Float} (same : x.toModel.unpack = y.toModel.unpack) : x = y :=
  Float.toBits_inj.mp (UInt64.toBitVec_inj.mp
    ((unpack_inj_of_valid x.toModel.valid y.toModel.valid).mp same))

/-- Bits below those of infinity are kept as they are. -/
theorem toBits_ofBits {bits : UInt64} (small : bits.toNat < infinityBits) :
    (Float.ofBits bits).toBits = bits := by
  have field : @unpackExponent Format.binary64 bits.toBitVec ≠ -1#11 := by
    intro same
    have top := congrArg BitVec.toNat same
    simp [unpackExponent, infinityBits, Nat.shiftRight_eq_div_pow] at top small
    omega
  have number : @isNaNBits Format.binary64 bits.toBitVec = false := by
    simp only [isNaNBits, field, false_and, decide_false]
  have packed := @pack_unpack Format.binary64 bits.toBitVec (by decide)
  rw [number, if_neg Bool.false_ne_true] at packed
  exact UInt64.toBitVec_inj.mp packed

end Number

namespace Binary

/-- The fraction of an unpacked double. -/
def ofUnpacked? : UnpackedFloat → Option Binary
  | .notANumber | .infinity _ => none
  | .zero sign => some ⟨sign == .negative, 0, -1074⟩
  | .finite sign mantissa exponent _ => some ⟨sign == .negative, mantissa, exponent⟩

theorem toNat_unpackMantissa (bits : BitVec Format.binary64.numBits) :
    (unpackMantissa bits).toNat = bits.toNat % hiddenBit := by
  simp [unpackMantissa]
  rfl

theorem toNat_unpackExponent (bits : BitVec Format.binary64.numBits) :
    (unpackExponent bits).toNat = bits.toNat / hiddenBit % 0x800 := by
  simp [unpackExponent, Nat.shiftRight_eq_div_pow]
  rfl

theorem ofBitVec_unpackSign (bits : BitVec Format.binary64.numBits) :
    (Sign.ofBitVec (unpackSign bits) == .negative) = decide (0x8000000000000000 ≤ bits.toNat) := by
  have width : bits.toNat < 18446744073709551616 := bits.isLt
  have sign : (unpackSign bits).toNat = bits.toNat / 0x8000000000000000 := by
    simp [unpackSign, Nat.shiftRight_eq_div_pow]
    omega
  unfold Sign.ofBitVec
  by_cases positive : unpackSign bits = 0#1
  · have low : ¬ 0x8000000000000000 ≤ bits.toNat := by
      rw [positive, BitVec.toNat_zero] at sign
      omega
    rw [if_pos positive, decide_eq_false low]
    rfl
  · have high : 0x8000000000000000 ≤ bits.toNat := by
      have nonzero : (unpackSign bits).toNat ≠ 0 :=
        fun same => positive (BitVec.eq_of_toNat_eq same)
      omega
    rw [if_neg positive, decide_eq_true high]
    rfl

/-- The fields of the bits say the same as the unpacked double. -/
theorem ofFloat?_eq_ofUnpacked? (x : Float) : ofFloat? x = ofUnpacked? x.toModel.unpack := by
  have mantissa := toNat_unpackMantissa x.toBits.toBitVec
  have exponent := toNat_unpackExponent x.toBits.toBitVec
  have sign := ofBitVec_unpackSign x.toBits.toBitVec
  have bias : (Format.binary64.exponentBias : Int) = 1023 := rfl
  change ofFloat? x = ofUnpacked? (unpack Format.binary64 x.toBits.toBitVec)
  simp only [ofFloat?, ← UInt64.toNat_toBitVec, ← mantissa, ← exponent, ← sign]
  delta unpack
  dsimp only
  by_cases special : @unpackExponent Format.binary64 x.toBits.toBitVec = -1#11
  · rw [if_pos special, if_pos (by rw [special]; rfl)]
    by_cases empty : @unpackMantissa Format.binary64 x.toBits.toBitVec = 0#52
    · rw [if_pos empty]
      rfl
    · rw [if_neg empty]
      rfl
  · have field := Number.toNat_exponent_lt special
    rw [if_neg special, if_neg (by omega)]
    by_cases least : @unpackExponent Format.binary64 x.toBits.toBitVec = 0#11
    · rw [if_pos least, if_pos (by rw [least]; rfl)]
      by_cases empty : @unpackMantissa Format.binary64 x.toBits.toBitVec = 0#52
      · rw [dif_pos empty, empty]
        rfl
      · rw [dif_neg empty]
        simp only [ofUnpacked?, Option.some.injEq, mk.injEq, true_and]
        rw [least, BitVec.toNat_zero]
        omega
    · have positive : (@unpackExponent Format.binary64 x.toBits.toBitVec).toNat ≠ 0 :=
        fun same => least (BitVec.eq_of_toNat_eq same)
      rw [if_neg least, if_neg positive]
      simp only [ofUnpacked?, Option.some.injEq, mk.injEq, true_and]
      rw [Number.toNat_append_hiddenBit]
      omega

theorem ofFloat?_neg (x : Float) :
    ofFloat? (-x) = (ofFloat? x).map fun b => { b with negative := !b.negative } := by
  rw [ofFloat?_eq_ofUnpacked?, ofFloat?_eq_ofUnpacked?, Number.unpack_neg]
  cases x.toModel.unpack with
  | zero sign => cases sign <;> rfl
  | finite sign mantissa exponent positive => cases sign <;> rfl
  | _ => rfl

theorem ofFloat?_abs (x : Float) :
    ofFloat? x.abs = (ofFloat? x).map fun b => { b with negative := false } := by
  rw [ofFloat?_eq_ofUnpacked?, ofFloat?_eq_ofUnpacked?, Number.unpack_abs]
  cases x.toModel.unpack <;> rfl

theorem ofFloat?_magnitude {x : Float} {b : Binary} (exact : ofFloat? x = some b) :
    ofFloat? x.abs = some { b with negative := false } := by
  rw [ofFloat?_abs, exact]
  rfl

theorem ofFloat?_signed {x : Float} {b : Binary} (exact : ofFloat? x = some b)
    (unsigned : b.negative = false) (negative : Bool) :
    ofFloat? (Number.signed negative x) = some { b with negative := negative } := by
  cases negative with
  | false =>
      rw [Number.signed, if_neg Bool.false_ne_true, exact, ← unsigned]
  | true =>
      rw [Number.signed, if_pos rfl, ofFloat?_neg, exact, Option.map_some, unsigned]
      rfl

theorem ofFloat?_zero : ofFloat? 0 = some ⟨false, 0, -1074⟩ := rfl

theorem ofFloat?_neg_zero : ofFloat? (-0) = some ⟨true, 0, -1074⟩ := rfl

/-- A double that has a fraction is finite. -/
theorem isFinite_of_ofFloat? {x : Float} {b : Binary} (exact : ofFloat? x = some b) :
    x.isFinite = true := by
  rw [ofFloat?_eq_ofUnpacked?] at exact
  change x.toModel.unpack.isFinite = true
  generalize x.toModel.unpack = u at exact ⊢
  cases u with
  | notANumber | infinity => cases exact
  | zero | finite => rfl

/-- The unpacked double that a fraction stands for, if it stands for one. -/
def toUnpacked (b : Binary) : UnpackedFloat :=
  let sign : Sign := if b.negative then .negative else .positive
  if positive : 0 < b.mantissa then .finite sign b.mantissa b.exponent positive else .zero sign

theorem eq_toUnpacked {u : UnpackedFloat} {b : Binary} (exact : ofUnpacked? u = some b) :
    u = b.toUnpacked := by
  cases u with
  | notANumber | infinity => cases exact
  | zero sign =>
      cases exact
      cases sign <;> rfl
  | finite sign mantissa exponent positive =>
      cases exact
      unfold toUnpacked
      rw [dif_pos positive]
      cases sign <;> rfl

/-- A fraction stands for one double. -/
theorem eq_of_ofFloat? {x y : Float} {b : Binary} (first : ofFloat? x = some b)
    (second : ofFloat? y = some b) : x = y := by
  rw [ofFloat?_eq_ofUnpacked?] at first second
  exact Number.eq_of_unpack_eq ((eq_toUnpacked first).trans (eq_toUnpacked second).symm)

/-- The mantissa has fifty-three bits, or fewer and the least exponent. -/
structure Fits (b : Binary) : Prop where
  width : b.mantissa < 2 * hiddenBit
  least : -1074 ≤ b.exponent
  greatest : b.exponent ≤ 971
  full : hiddenBit ≤ b.mantissa ∨ b.exponent = -1074

theorem fits_of_ofFloat? {x : Float} {b : Binary} (exact : ofFloat? x = some b) : b.Fits := by
  have representable := Number.representable_unpack x.toBits.toBitVec
  change Number.Representable x.toModel.unpack at representable
  rw [ofFloat?_eq_ofUnpacked?] at exact
  cases form : x.toModel.unpack with
  | notANumber | infinity => simp [form, ofUnpacked?] at exact
  | zero sign =>
      rw [form] at exact
      cases exact
      exact ⟨show 0 < 2 * hiddenBit by decide, Int.le_refl _, show (-1074 : Int) ≤ 971 by decide,
        Or.inr rfl⟩
  | finite sign mantissa exponent positive =>
      rw [form] at exact representable
      cases exact
      obtain ⟨width, least, greatest, full⟩ := representable
      exact ⟨width, least, greatest, full⟩

/-- The bits of the magnitude: those of the mantissa with the exponent added above them. -/
def magnitudeBits (b : Binary) : Nat :=
  b.mantissa + (b.exponent + 1074).toNat <<< 52

theorem magnitudeBits_eq (b : Binary) :
    b.magnitudeBits = b.mantissa + (b.exponent + 1074).toNat * hiddenBit := by
  have shifted := Nat.shiftLeft_eq (b.exponent + 1074).toNat 52
  unfold magnitudeBits hiddenBit
  rw [shifted]

theorem Fits.magnitudeBits_lt {b : Binary} (fits : b.Fits) :
    b.magnitudeBits < Number.infinityBits := by
  have infinity : Number.infinityBits = 2047 * 4503599627370496 := by decide
  obtain ⟨width, least, greatest, full⟩ := fits
  rw [magnitudeBits_eq, infinity]
  simp only [hiddenBit] at *
  omega

/-- Every fraction that fits has a double. -/
theorem Fits.ofFloat?_magnitudeBits {b : Binary} (fits : b.Fits) :
    ofFloat? (Float.ofBits b.magnitudeBits.toUInt64) = some { b with negative := false } := by
  have infinity : Number.infinityBits = 2047 * 4503599627370496 := by decide
  have small := fits.magnitudeBits_lt
  have kept : b.magnitudeBits.toUInt64.toNat = b.magnitudeBits := by
    rw [Nat.toUInt64, UInt64.toNat_ofNat']
    omega
  have bits := b.magnitudeBits_eq
  have positive : ¬ 0x8000000000000000 ≤ b.magnitudeBits := by omega
  have same : (Float.ofBits b.magnitudeBits.toUInt64).toBits = b.magnitudeBits.toUInt64 :=
    Number.toBits_ofBits (kept.trans_lt small)
  obtain ⟨width, least, greatest, full⟩ := fits
  simp only [ofFloat?]
  rw [same, kept, decide_eq_false positive]
  by_cases normal : hiddenBit ≤ b.mantissa
  · have fraction : b.magnitudeBits % hiddenBit = b.mantissa - hiddenBit := by
      simp only [hiddenBit] at *
      omega
    have field : b.magnitudeBits / hiddenBit % 0x800 = (b.exponent + 1075).toNat := by
      simp only [hiddenBit] at *
      omega
    rw [fraction, field, if_neg (by omega), if_neg (by omega)]
    simp only [Option.some.injEq, mk.injEq, true_and]
    omega
  · have fraction : b.magnitudeBits % hiddenBit = b.mantissa := by
      simp only [hiddenBit] at *
      omega
    have field : b.magnitudeBits / hiddenBit % 0x800 = 0 := by
      simp only [hiddenBit] at *
      omega
    rw [fraction, field, if_neg (by decide), if_pos rfl]
    simp only [Option.some.injEq, mk.injEq, true_and]
    omega

end Binary
end Reckoner
