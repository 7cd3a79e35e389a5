import Reckoner.Arith.Comparison
import Reckoner.Proofs.Integers

set_option autoImplicit false

namespace Reckoner

open Float.Model (UnpackedFloat Format)
open Float.Model.UnpackedFloat (Sign pack unpack packComponents)

namespace Number

/-- Without its sign a double has the bits of the positive one. -/
theorem abs_unpack_packComponents (sign : Sign) (field : BitVec 11) (fraction : BitVec 52) :
    (unpack Format.binary64 (packComponents Format.binary64 sign field fraction)).abs =
      unpack Format.binary64 (packComponents Format.binary64 .positive field fraction) := by
  delta unpack
  dsimp only
  simp only [UnpackedFloat.unpackExponent_packComponents,
    UnpackedFloat.unpackMantissa_packComponents, UnpackedFloat.unpackSign_packComponents,
    UnpackedFloat.Sign.ofBitVec_toBitVec]
  by_cases special : field = -1#11
  · rw [if_pos special, if_pos special]
    split <;> rfl
  · rw [if_neg special, if_neg special]
    split
    · split <;> rfl
    · rfl

theorem abs_unpack_pack (u : UnpackedFloat) :
    (unpack Format.binary64 (pack Format.binary64 u)).abs =
      unpack Format.binary64 (pack Format.binary64 u.abs) := by
  cases u with
  | notANumber => rfl
  | infinity sign => cases sign <;> rfl
  | zero sign => cases sign <;> rfl
  | finite sign mantissa exponent positive =>
      rw [UnpackedFloat.abs, pack_finite, pack_finite]
      split
      · cases sign <;> rfl
      · split
        · exact abs_unpack_packComponents sign _ _
        · exact abs_unpack_packComponents sign _ _

theorem abs_round (spec : Format) (sign : Sign) (mantissa : Nat) (exponent : Int) :
    (UnpackedFloat.round spec sign mantissa exponent).abs =
      UnpackedFloat.round spec .positive mantissa exponent := by
  simp only [UnpackedFloat.round, UnpackedFloat.roundWithAccuracy]
  split <;> rfl

/-- Rounding goes by the magnitude. -/
theorem abs_normalize_neg (spec : Format) (mantissa exponent : Int) (zeroSign : Sign) :
    (UnpackedFloat.normalize spec (-mantissa) exponent zeroSign).abs =
      (UnpackedFloat.normalize spec mantissa exponent zeroSign).abs := by
  rcases lt_trichotomy mantissa 0 with negative | rfl | positive
  · have flipped : compare (-mantissa) 0 = .gt := Int.compare_eq_gt.mpr (by omega)
    have below : compare mantissa 0 = .lt := Int.compare_eq_lt.mpr negative
    simp only [UnpackedFloat.normalize, flipped, below, abs_round]
  · rfl
  · have flipped : compare (-mantissa) 0 = .lt := Int.compare_eq_lt.mpr (by omega)
    have above : compare mantissa 0 = .gt := Int.compare_eq_gt.mpr positive
    simp only [UnpackedFloat.normalize, flipped, above, abs_round, neg_neg]

theorem abs_sub_unpacked (spec : Format) (u v : UnpackedFloat) :
    (UnpackedFloat.sub spec u v).abs = (UnpackedFloat.sub spec v u).abs := by
  cases u with
  | notANumber => cases v <;> rfl
  | infinity sign =>
      cases v with
      | infinity sign' => cases sign <;> cases sign' <;> rfl
      | _ => rfl
  | zero sign =>
      cases v with
      | zero sign' => cases sign <;> cases sign' <;> rfl
      | _ => rfl
  | finite sign mantissa exponent positive =>
      cases v with
      | finite sign' mantissa' exponent' positive' =>
          simp only [UnpackedFloat.sub]
          rw [← neg_sub, abs_normalize_neg, min_comm]
      | _ => rfl

/-- Both differences of two doubles have the same magnitude. -/
theorem abs_sub_comm (x y : Float) : (x - y).abs = (y - x).abs := by
  apply eq_of_unpack_eq
  rw [unpack_abs, unpack_abs]
  change (unpack Format.binary64 (pack Format.binary64 (UnpackedFloat.sub _ _ _))).abs =
    (unpack Format.binary64 (pack Format.binary64 (UnpackedFloat.sub _ _ _))).abs
  rw [abs_unpack_pack, abs_unpack_pack, abs_sub_unpacked]

theorem isFinite_eq (x : Float) : x.isFinite = (!x.isNaN && !x.isInf) := by
  change x.toModel.unpack.isFinite = (!x.toModel.unpack.isNaN && !x.toModel.unpack.isInf)
  cases x.toModel.unpack <;> rfl

end Number

namespace Tolerance

variable {t : Tolerance}

theorem isZero_sub_comm (x y : Float) : t.isZero (x - y) = t.isZero (y - x) := by
  rw [isZero, isZero, Number.abs_sub_comm]

/-- The difference of a double and itself counts as zero exactly if the double is finite. -/
theorem isZero_sub_self (regular : 0 ≤ t.bound) (x : Float) : t.isZero (x - x) = x.isFinite := by
  have null := Number.isNull_sub_self x
  cases finite : x.isFinite with
  | true =>
      rw [finite] at null
      exact t.isZero_of_eq_zero regular null.beq_zero
  | false =>
      rw [finite] at null
      have nan : (x - x).abs.isNaN = true := by rw [Number.isNaN_abs, null.isNaN, Bool.not_false]
      exact decide_eq_false (Number.not_le_of_isNaN nan _)

def near (t : Tolerance) (a b : Complex) : Bool :=
  t.isZero (a.re - b.re) && t.isZero (a.im - b.im)

theorem near_comm (a b : Complex) : t.near a b = t.near b a := by
  rw [near, near, isZero_sub_comm a.re, isZero_sub_comm a.im]

theorem near_self (regular : 0 ≤ t.bound) (a : Complex) :
    t.near a a = (a.re.isFinite && a.im.isFinite) := by
  rw [near, isZero_sub_self regular, isZero_sub_self regular]

end Tolerance

namespace Value

mutual

/-- The doubles that occur in a value, in lists of any depth: its numbers, and both parts of its
complex numbers. -/
def doubles : Value → List Float
  | .number x => [x]
  | .complex z => [z.re, z.im]
  | .boolean _ | .text _ => []
  | .list elements => doublesOf elements

def doublesOf : List Value → List Float
  | [] => []
  | value :: rest => value.doubles ++ doublesOf rest

end

end Value

namespace Arith

variable {t : Tolerance}

theorem toComplex_of_isNumeric {v : Value} (numeric : v.isNumeric = true) (operation : String) :
    ∃ z, toComplex operation v = .ok z := by
  cases v with
  | text | list => cases numeric
  | _ => exact ⟨_, rfl⟩

theorem toComplex_of_not_isNumeric {v : Value} (foreign : v.isNumeric = false)
    (operation : String) :
    toComplex operation v = .error (.ofCause (.notComplex operation v.typeName)) := by
  cases v with
  | text | list => rfl
  | _ => cases foreign

/-- As soon as one side is a number, both have to be. -/
theorem equals_of_isNumeric {v w : Value} (numeric : v.isNumeric = true ∨ w.isNumeric = true) :
    equals t v w = (do
      let a ← toComplex "equality" v
      let b ← toComplex "equality" w
      return t.near a b) := by
  cases v with
  | text | list =>
      cases w with
      | text | list => simp [Value.isNumeric] at numeric
      | _ => rfl
  | _ => cases w <;> rfl

/-- The report of a value that stands against a number. -/
def refusal (other : Value) : Fault :=
  .ofCause (.notComplex "equality" other.typeName)

theorem equals_number_other {v w : Value} (numeric : v.isNumeric = true)
    (foreign : w.isNumeric = false) :
    equals t v w = .error (refusal w) ∧ equals t w v = .error (refusal w) := by
  obtain ⟨z, number⟩ := toComplex_of_isNumeric numeric "equality"
  have other := toComplex_of_not_isNumeric foreign "equality"
  rw [equals_of_isNumeric (Or.inl numeric), equals_of_isNumeric (Or.inr numeric), number, other]
  exact ⟨rfl, rfl⟩

theorem equals_number_number {v w : Value} (numericV : v.isNumeric = true)
    (numericW : w.isNumeric = true) :
    ∃ b, equals t v w = .ok b ∧ equals t w v = .ok b := by
  obtain ⟨a, first⟩ := toComplex_of_isNumeric numericV "equality"
  obtain ⟨b, second⟩ := toComplex_of_isNumeric numericW "equality"
  rw [equals_of_isNumeric (Or.inl numericV), equals_of_isNumeric (Or.inl numericW), first, second]
  exact ⟨t.near a b, rfl, congrArg Except.ok (t.near_comm b a)⟩

/-- A number is compared alike from both sides. -/
theorem equals_comm_of_isNumeric {v : Value} (numeric : v.isNumeric = true) (w : Value) :
    equals t v w = equals t w v := by
  cases other : w.isNumeric with
  | true =>
      obtain ⟨b, forth, back⟩ := equals_number_number (t := t) numeric other
      rw [forth, back]
  | false =>
      obtain ⟨forth, back⟩ := equals_number_other (t := t) numeric other
      rw [forth, back]

mutual

theorem equals_comm (t : Tolerance) : (v w : Value) → equals t v w = equals t w v
  | .number x, w => equals_comm_of_isNumeric (v := .number x) rfl w
  | .boolean b, w => equals_comm_of_isNumeric (v := .boolean b) rfl w
  | .complex z, w => equals_comm_of_isNumeric (v := .complex z) rfl w
  | .text s, w => by
      cases w with
      | text s' => simp only [equals, eq_comm]
      | list elements => rfl
      | _ => exact (equals_comm_of_isNumeric rfl (.text s)).symm
  | .list elements, w => by
      cases w with
      | list others =>
          simp only [equals, eq_comm (a := elements.length), equalElements_comm t elements others]
      | text s => rfl
      | _ => exact (equals_comm_of_isNumeric rfl (.list elements)).symm

theorem equalElements_comm (t : Tolerance) :
    (vs ws : List Value) → equalElements t vs ws = equalElements t ws vs
  | [], [] => rfl
  | [], _ :: _ => rfl
  | _ :: _, [] => rfl
  | v :: vs, w :: ws => by
      rw [equalElements, equalElements, equals_comm t v w, equalElements_comm t vs ws]

end

/-- The comparison of `v` and `w` comes to the pair of a number and `other`, which is none: at once,
or in lists of the same length after pairs of equal elements. -/
inductive Clash (t : Tolerance) : (v w other : Value) → Prop
  | right {number other : Value} (numeric : number.isNumeric = true)
      (foreign : other.isNumeric = false) : Clash t number other other
  | left {number other : Value} (numeric : number.isNumeric = true)
      (foreign : other.isNumeric = false) : Clash t other number other
  | element {before before' after after' : List Value} {v w other : Value}
      (equal : List.Forall₂ (fun a b => equals t a b = .ok true) before before')
      (clash : Clash t v w other) (length : after.length = after'.length) :
      Clash t (.list (before ++ v :: after)) (.list (before' ++ w :: after')) other

theorem equalElements_append {before before' : List Value}
    (equal : List.Forall₂ (fun a b => equals t a b = .ok true) before before')
    (vs ws : List Value) :
    equalElements t (before ++ vs) (before' ++ ws) = equalElements t vs ws := by
  induction equal with
  | nil => rfl
  | cons first _ ih =>
      rw [List.cons_append, List.cons_append, equalElements, first]
      exact ih

/-- A clash is refused. -/
theorem Clash.equals_eq {v w other : Value} (clash : Clash t v w other) :
    equals t v w = .error (refusal other) := by
  induction clash with
  | right numeric foreign => exact (equals_number_other numeric foreign).1
  | left numeric foreign => exact (equals_number_other numeric foreign).2
  | element equal _ length ih =>
      have lengths := equal.length_eq
      rw [equals, if_pos (by simp [lengths, length]), equalElements_append equal, equalElements, ih]
      rfl

/-- A pair of equal elements before a clash changes nothing. -/
theorem Clash.later {v w other : Value} {vs ws : List Value} (equal : equals t v w = .ok true)
    (clash : Clash t (.list vs) (.list ws) other) :
    Clash t (.list (v :: vs)) (.list (w :: ws)) other := by
  cases clash with
  | right numeric _ => cases numeric
  | left numeric _ => cases numeric
  | element before clash length => exact .element (before.cons equal) clash length

theorem exists_clash_number {v w : Value} {fault : Fault} (numeric : v.isNumeric = true)
    (failed : equals t v w = .error fault) : ∃ other, Clash t v w other := by
  cases other : w.isNumeric with
  | true =>
      obtain ⟨b, success, -⟩ := equals_number_number (t := t) numeric other
      cases success.symm.trans failed
  | false => exact ⟨w, .right numeric other⟩

mutual

/-- Nothing but a clash is refused. -/
theorem exists_clash (t : Tolerance) : (v w : Value) → ∀ {fault : Fault},
    equals t v w = .error fault → ∃ other, Clash t v w other
  | .text s, w, fault, failed => by
      cases w with
      | text s' => cases failed
      | list elements => cases failed
      | _ => exact ⟨_, .left rfl rfl⟩
  | .list elements, w, fault, failed => by
      cases w with
      | text s => cases failed
      | list others =>
          rw [equals] at failed
          split at failed
          · rename_i length
            exact exists_clash_elements t elements others length failed
          · cases failed
      | _ => exact ⟨_, .left rfl rfl⟩
  | .number x, w, fault, failed => exists_clash_number rfl failed
  | .boolean b, w, fault, failed => exists_clash_number rfl failed
  | .complex z, w, fault, failed => exists_clash_number rfl failed

theorem exists_clash_elements (t : Tolerance) : (vs ws : List Value) → vs.length = ws.length →
    ∀ {fault : Fault}, equalElements t vs ws = .error fault →
      ∃ other, Clash t (.list vs) (.list ws) other
  | [], _, _, _, failed => by cases failed
  | _ :: _, [], length, _, _ => by cases length
  | v :: vs, w :: ws, length, fault, failed => by
      have lengths : vs.length = ws.length := Nat.succ.inj length
      rw [equalElements] at failed
      cases outcome : equals t v w with
      | error reason =>
          obtain ⟨other, clash⟩ := exists_clash t v w outcome
          exact ⟨other, .element .nil clash lengths⟩
      | ok same =>
          rw [outcome] at failed
          cases same with
          | false => cases failed
          | true =>
              obtain ⟨other, clash⟩ := exists_clash_elements t vs ws lengths failed
              exact ⟨other, clash.later outcome⟩

end

/-- Equality has the same outcome either way. It is a truth value, unless the comparison comes to a
clash; then both ways end in the type mismatch that reports the value which is no number. -/
theorem equality_symmetric (t : Tolerance) (v w : Value) :
    (∃ b, equals t v w = .ok b ∧ equals t w v = .ok b ∧ ∀ other, ¬ Clash t v w other) ∨
      ∃ other cause, Clash t v w other ∧ equals t v w = .error (.ofCause cause) ∧
        equals t w v = .error (.ofCause cause) ∧ cause.kind = .typeMismatch ∧
        cause.diagnostic.message = "equality expects numeric arguments" ∧
        cause.diagnostic.received = some other.typeName ∧
        cause.diagnostic.expected = some "number, boolean or complex" := by
  rw [equals_comm t w v]
  cases outcome : equals t v w with
  | ok b =>
      refine Or.inl ⟨b, rfl, rfl, fun other clash => ?_⟩
      cases clash.equals_eq.symm.trans outcome
  | error fault =>
      obtain ⟨other, clash⟩ := exists_clash t v w outcome
      have reported : fault = refusal other := by
        cases clash.equals_eq.symm.trans outcome
        rfl
      exact Or.inr ⟨other, .notComplex "equality" other.typeName, clash, congrArg _ reported,
        congrArg _ reported, rfl, rfl, rfl, rfl⟩

/-- An unequal element hides a later clash, in both orders. -/
example :
    let number : Value := .list [.number 1, .number 2]
    let text : Value := .list [.number 3, .text "a"]
    equals .standard number text = .ok false ∧ equals .standard text number = .ok false := by
  decide +kernel

mutual

theorem equals_self (regular : 0 ≤ t.bound) :
    (v : Value) → equals t v v = .ok (v.doubles.all Float.isFinite)
  | .number x => by
      have real : (0 : Float).isFinite = true := rfl
      change Except.ok (t.near (.ofReal x) (.ofReal x)) = _
      rw [t.near_self regular]
      simp [Complex.ofReal, Value.doubles, real]
  | .boolean b => by
      change Except.ok (t.near (.ofReal (indicator b)) (.ofReal (indicator b))) = _
      rw [t.near_self regular]
      cases b <;> rfl
  | .complex z => by
      change Except.ok (t.near z z) = _
      rw [t.near_self regular]
      simp [Value.doubles]
  | .text s => by simp [equals, Value.doubles]
  | .list elements => by
      rw [equals, if_pos rfl, equalElements_self regular elements, Value.doubles]

theorem equalElements_self (regular : 0 ≤ t.bound) :
    (vs : List Value) → equalElements t vs vs = .ok ((Value.doublesOf vs).all Float.isFinite)
  | [] => rfl
  | v :: vs => by
      rw [equalElements, equals_self regular v, equalElements_self regular vs, Value.doublesOf,
        List.all_append]
      cases v.doubles.all Float.isFinite <;> rfl

end

/-- Under a tolerance that is not negative a value is compared with itself without a fault, and
equals itself exactly if all doubles in it are finite; so a value without NaN equals itself exactly
if no infinity occurs in it. -/
theorem equality_reflexive_iff (regular : 0 ≤ t.bound) (v : Value) :
    equals t v v = .ok (v.doubles.all Float.isFinite) ∧
      ((∀ x ∈ v.doubles, x.isNaN = false) →
        (equals t v v = .ok true ↔ ∀ x ∈ v.doubles, x.isInf = false)) := by
  refine ⟨equals_self regular v, fun numbers => ?_⟩
  rw [equals_self regular, Except.ok.injEq, List.all_eq_true]
  refine forall₂_congr fun x inside => ?_
  rw [Number.isFinite_eq, numbers x inside]
  simp

theorem equality_reflexive_iff_nested :
    let v : Value := .list [.number 1e308, .list [.complex ⟨-0, 3⟩, .boolean true], .text "a"]
    let exact : Tolerance := ⟨0⟩
    0 ≤ exact.bound ∧ (∀ x ∈ v.doubles, x.isNaN = false) ∧ (∀ x ∈ v.doubles, x.isInf = false) ∧
      equals exact v v = .ok true := by
  intro v exact
  have regular : 0 ≤ exact.bound := by decide +kernel
  have numbers : ∀ x ∈ v.doubles, x.isNaN = false := by decide +kernel
  have finite : ∀ x ∈ v.doubles, x.isInf = false := by decide +kernel
  exact ⟨regular, numbers, finite, ((equality_reflexive_iff regular v).2 numbers).mpr finite⟩

/-- An infinity is no NaN and is not equal to itself, alone and in a list. -/
theorem infinity_unequal_to_itself :
    let t := Tolerance.standard
    let v : Value := .number Number.infinity
    0 ≤ t.bound ∧ (∀ x ∈ v.doubles, x.isNaN = false) ∧ equals t v v = .ok false ∧
      equals t (.list [v]) (.list [v]) = .ok false := by
  decide +kernel

end Arith

end Reckoner
