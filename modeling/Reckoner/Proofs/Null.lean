import Reckoner.Proofs.Number

set_option autoImplicit false

namespace Reckoner

open Float.Model (UnpackedFloat Format)

/-- Neither zero nor NaN: a zero divided by it is zero. -/
def Null.divides : UnpackedFloat → Bool
  | .infinity _ | .finite _ _ _ _ => true
  | .zero _ | .notANumber => false

/-- Zero if `finite`, and NaN otherwise. -/
inductive Null : Bool → UnpackedFloat → Prop
  | zero (sign : UnpackedFloat.Sign) : Null true (.zero sign)
  | nan : Null false .notANumber

namespace Null

variable {finite other : Bool} {u v : UnpackedFloat}

theorem unpack_pack (null : Null finite u) :
    Null finite (UnpackedFloat.unpack Format.binary64 (UnpackedFloat.pack Format.binary64 u)) := by
  have same : UnpackedFloat.unpack Format.binary64 (UnpackedFloat.pack Format.binary64 u) = u := by
    cases null with
    | zero sign => exact Number.unpack_pack trivial
    | nan => exact Number.unpack_pack trivial
  rwa [same]

theorem mul (null : Null finite u) (spec : Format) (v : UnpackedFloat) :
    Null (finite && v.isFinite) (UnpackedFloat.mul spec u v) := by
  cases null with
  | zero sign => cases v <;> constructor
  | nan => constructor

theorem mul_left (null : Null finite u) (spec : Format) (v : UnpackedFloat) :
    Null (finite && v.isFinite) (UnpackedFloat.mul spec v u) := by
  cases null with
  | zero sign => cases v <;> constructor
  | nan => cases v <;> constructor

theorem add (first : Null finite u) (second : Null other v) (spec : Format) :
    Null (finite && other) (UnpackedFloat.add spec u v) := by
  cases first with
  | zero sign =>
      cases second with
      | zero sign =>
          simp only [UnpackedFloat.add]
          split <;> constructor
      | nan => constructor
  | nan => constructor

theorem sub (first : Null finite u) (second : Null other v) (spec : Format) :
    Null (finite && other) (UnpackedFloat.sub spec u v) := by
  cases first with
  | zero sign =>
      cases second with
      | zero sign =>
          simp only [UnpackedFloat.sub]
          split <;> constructor
      | nan => constructor
  | nan => constructor

theorem div (null : Null finite u) (spec : Format) (v : UnpackedFloat) :
    Null (finite && divides v) (UnpackedFloat.div spec u v) := by
  cases null with
  | zero sign => cases v <;> constructor
  | nan => constructor

end Null

namespace Number

def IsNull (finite : Bool) (x : Float) : Prop :=
  Null finite x.toModel.unpack

theorem isNull_zero : IsNull true 0 :=
  .zero .positive

namespace IsNull

variable {finite other : Bool} {x y : Float}

theorem isNaN (null : IsNull finite x) : x.isNaN = !finite := by
  unfold IsNull at null
  change x.toModel.unpack.isNaN = _
  generalize x.toModel.unpack = u at null ⊢
  cases null <;> rfl

theorem beq_zero (null : IsNull finite x) : (x == 0) = finite := by
  unfold IsNull at null
  change (UnpackedFloat.compare x.toModel.unpack (0 : Float).toModel.unpack == some .eq) = finite
  rw [unpack_zero]
  generalize x.toModel.unpack = u at null ⊢
  cases null <;> rfl

theorem mul (null : IsNull finite x) (y : Float) : IsNull (finite && y.isFinite) (x * y) :=
  (Null.mul null Format.binary64 y.toModel.unpack).unpack_pack

theorem mul_left (null : IsNull finite y) (x : Float) : IsNull (finite && x.isFinite) (x * y) :=
  (Null.mul_left null Format.binary64 x.toModel.unpack).unpack_pack

theorem add (first : IsNull finite x) (second : IsNull other y) :
    IsNull (finite && other) (x + y) :=
  (Null.add first second Format.binary64).unpack_pack

theorem sub (first : IsNull finite x) (second : IsNull other y) :
    IsNull (finite && other) (x - y) :=
  (Null.sub first second Format.binary64).unpack_pack

theorem div (null : IsNull finite x) (y : Float) :
    IsNull (finite && Null.divides y.toModel.unpack) (x / y) :=
  (Null.div null Format.binary64 y.toModel.unpack).unpack_pack

end IsNull

theorem isNaN_unpack_packComponents (sign : UnpackedFloat.Sign) {field : BitVec 11}
    (special : field ≠ -1#11) (fraction : BitVec 52) :
    (UnpackedFloat.unpack Format.binary64
      (UnpackedFloat.packComponents Format.binary64 sign field fraction)).isNaN = false := by
  delta UnpackedFloat.unpack
  dsimp only
  rw [UnpackedFloat.unpackExponent_packComponents, if_neg special]
  split
  · split <;> rfl
  · rfl

/-- Packing does not make a number NaN. -/
theorem isNaN_unpack_pack {u : UnpackedFloat} (number : u.isNaN = false) :
    (UnpackedFloat.unpack Format.binary64 (UnpackedFloat.pack Format.binary64 u)).isNaN =
      false := by
  cases u with
  | notANumber => cases number
  | infinity sign => cases sign <;> rfl
  | zero sign => cases sign <;> rfl
  | finite sign mantissa exponent positive =>
      rw [pack_finite]
      split
      · cases sign <;> rfl
      · rename_i small
        have special : BitVec.ofNat 11 (exponent + 1023 + 52).toNat ≠ -1#11 := by
          intro same
          have field := congrArg BitVec.toNat same
          rw [BitVec.toNat_ofNat] at field
          change _ = 2047 at field
          omega
        split
        · exact isNaN_unpack_packComponents sign special _
        · exact isNaN_unpack_packComponents sign (by decide) _

/-- The square of a finite number may be infinite, but it is a number. -/
theorem isNaN_normSquare_ofReal {y : Float} (finite : y.isFinite = true) :
    (Complex.ofReal y).normSquare.isNaN = false := by
  have square : (y * y).toModel.unpack.isNaN = false := by
    apply isNaN_unpack_pack
    change y.toModel.unpack.isFinite = true at finite
    generalize y.toModel.unpack = u at finite ⊢
    cases u with
    | zero sign => rfl
    | finite sign mantissa exponent positive =>
        simp only [UnpackedFloat.mul, UnpackedFloat.roundWithAccuracy]
        split <;> rfl
    | _ => cases finite
  apply isNaN_unpack_pack
  have zero : (0 * 0 : Float).toModel.unpack = .zero .positive := rfl
  change (UnpackedFloat.add Format.binary64 (y * y).toModel.unpack
    (0 * 0 : Float).toModel.unpack).isNaN = false
  rw [zero]
  generalize (y * y).toModel.unpack = u at square ⊢
  cases u with
  | notANumber => cases square
  | infinity sign => rfl
  | zero sign => cases sign <;> rfl
  | finite sign mantissa exponent positive => rfl

theorem isNull_of_isNaN {x : Float} (nan : x.isNaN = true) : IsNull false x := by
  have form : x.toModel.unpack = .notANumber := UnpackedFloat.isNaN_iff.mp nan
  rw [IsNull, form]
  exact .nan

theorem divides_of_ne_zero {x : Float} (nonzero : ¬ (x == 0) = true) (number : x.isNaN = false) :
    Null.divides x.toModel.unpack = true := by
  change ¬ (UnpackedFloat.compare x.toModel.unpack (0 : Float).toModel.unpack == some .eq) = true
    at nonzero
  change x.toModel.unpack.isNaN = false at number
  rw [unpack_zero] at nonzero
  generalize x.toModel.unpack = u at nonzero number ⊢
  cases u with
  | zero sign => exact absurd rfl nonzero
  | notANumber => cases number
  | _ => rfl

theorem isNaN_abs (x : Float) : x.abs.isNaN = x.isNaN := by
  change x.abs.toModel.unpack.isNaN = x.toModel.unpack.isNaN
  rw [unpack_abs]
  cases x.toModel.unpack <;> rfl

theorem not_le_of_isNaN {x : Float} (nan : x.isNaN = true) (y : Float) : ¬ x ≤ y := by
  have form : x.toModel.unpack = .notANumber := UnpackedFloat.isNaN_iff.mp nan
  rw [le_iff, form]
  exact nofun

end Number

end Reckoner
