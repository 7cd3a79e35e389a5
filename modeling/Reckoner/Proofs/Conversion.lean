import Reckoner.Datum
import Reckoner.Proofs.Canonical
import Reckoner.Proofs.ReadBack

set_option autoImplicit false

namespace Reckoner

namespace Binary

/-- An integer is its own integer part. -/
theorem floor_of_isInteger {b : Binary} (whole : b.isInteger = true) :
    b.floor =
      if b.negative then -((b.numerator / b.denominator : Nat) : Int)
      else ((b.numerator / b.denominator : Nat) : Int) := by
  have divides : (b.denominator : Int) ∣ b.numerator :=
    Int.natCast_dvd_natCast.mpr (Nat.dvd_of_mod_eq_zero (beq_iff_eq.mp whole))
  rw [floor, signedNumerator]
  split
  · rw [Int.neg_ediv_of_dvd divides, Int.natCast_ediv]
  · rw [Int.natCast_ediv]

end Binary

namespace Number

/-- The integer that a double is goes back to the double, up to the sign of zero. -/
theorem ofInt_floor {x : Float} {b : Binary} (exact : Binary.ofFloat? x = some b)
    (whole : b.isInteger = true) : ofInt b.floor = unsignedZero x := by
  have floor := Binary.floor_of_isInteger whole
  by_cases zero : b.mantissa = 0
  · have none : b.floor = 0 := by simp [floor, Binary.numerator, zero]
    rw [none, unsignedZero, if_pos (eq_zero_of_mantissa exact zero)]
    decide +kernel
  · have nonzero : ¬ (x == 0) = true := fun same => zero (mantissa_eq_zero exact same)
    have numerator : b.numerator ≠ 0 := by
      rw [Binary.numerator, Nat.shiftLeft_eq]
      positivity
    have positive : 0 < b.numerator / b.denominator :=
      Nat.div_pos (Nat.le_of_dvd (Nat.pos_of_ne_zero numerator)
        (Nat.dvd_of_mod_eq_zero (beq_iff_eq.mp whole))) b.denominator_pos
    have magnitude : b.floor.natAbs = b.numerator / b.denominator := by
      rw [floor]
      split <;> omega
    have sign : decide (b.floor < 0) = b.negative := by
      rw [floor]
      cases b.negative <;> simp <;> omega
    rw [ofInt, magnitude, sign, ← Decimal.toFloat_integer, toFloat_wholePart whole,
      ← Binary.toFloat, Binary.toFloat_eq exact, unsignedZero, if_neg nonzero]

theorem ofInt?_floor {x : Float} {b : Binary} (exact : Binary.ofFloat? x = some b)
    (whole : b.isInteger = true) : ofInt? b.floor = some (unsignedZero x) := by
  have inRange := Binary.ofInt?_rounded_isSome exact b.floor List.mem_cons_self
  rw [← ofInt_floor exact whole]
  unfold ofInt? at inRange ⊢
  split at inRange
  · cases inRange
  · rename_i finite
    rw [if_neg finite]

end Number

namespace Value

mutual

/-- The value with every number and every complex number replaced. -/
def mapNumbers (number : Float → Value) (complex : Complex → Value) : Value → Value
  | .number x => number x
  | .complex z => complex z
  | .boolean b => .boolean b
  | .text s => .text s
  | .list elements => .list (mapAllNumbers number complex elements)

def mapAllNumbers (number : Float → Value) (complex : Complex → Value) : List Value → List Value
  | [] => []
  | value :: rest => value.mapNumbers number complex :: mapAllNumbers number complex rest

end

mutual

theorem mapNumbers_self : (v : Value) → v.mapNumbers .number .complex = v
  | .number _ | .complex _ | .boolean _ | .text _ => rfl
  | .list elements => congrArg Value.list (mapAllNumbers_self elements)

theorem mapAllNumbers_self :
    (values : List Value) → mapAllNumbers .number .complex values = values
  | [] => rfl
  | value :: rest => congrArg₂ List.cons (mapNumbers_self value) (mapAllNumbers_self rest)

end

/-- The value with the sign of every number that is zero dropped. -/
def unsigned (v : Value) : Value :=
  v.mapNumbers (fun x => .number (Number.unsignedZero x)) .complex

end Value

namespace Datum

theorem toValue_ofNumber (x : Float) :
    (ofNumber x).toValue = .ok (.number (Number.unsignedZero x)) := by
  unfold ofNumber
  split
  · rename_i b exact
    split
    · rename_i whole
      rw [toValue, integerToValue, Number.ofInt?_floor exact whole]
    · rename_i fraction
      have nonzero : ¬ (x == 0) = true :=
        fun zero => fraction (Number.isInteger_of_eq_zero exact zero)
      rw [toValue, Number.unsignedZero, if_neg nonzero]
  · rename_i infinite
    have nonzero : ¬ (x == 0) = true := by
      intro zero
      rcases Number.eq_zero_or_neg_zero zero with rfl | rfl
      · exact absurd infinite (by decide +kernel)
      · exact absurd infinite (by decide +kernel)
    rw [toValue, Number.unsignedZero, if_neg nonzero]

mutual

/-- The data of a value stands for a value with the same numbers. -/
theorem toValue_ofValue :
    (v : Value) → (ofValue v).toValue = .ok (v.mapNumbers .number complexToValue)
  | .number _ | .complex _ | .boolean _ | .text _ => rfl
  | .list elements => by
      rw [ofValue, toValue, toValues_ofValues elements]
      rfl

theorem toValues_ofValues : (values : List Value) →
    toValues (ofValues values) = .ok (Value.mapAllNumbers .number complexToValue values)
  | [] => rfl
  | first :: rest => by
      rw [ofValues, toValues, toValue_ofValue first, toValues_ofValues rest]
      rfl

end

mutual

/-- So does the data of a result, but for the sign of zero. -/
theorem toValue_ofResult : (v : Value) → (ofResult v).toValue =
    .ok (v.mapNumbers (fun x => .number (Number.unsignedZero x)) complexToValue)
  | .number x => toValue_ofNumber x
  | .complex _ | .boolean _ | .text _ => rfl
  | .list elements => by
      rw [ofResult, toValue, toValues_ofResults elements]
      rfl

theorem toValues_ofResults : (values : List Value) → toValues (ofResults values) =
    .ok (Value.mapAllNumbers (fun x => .number (Number.unsignedZero x)) complexToValue values)
  | [] => rfl
  | first :: rest => by
      rw [ofResults, toValues, toValue_ofResult first, toValues_ofResults rest]
      rfl

end

theorem complexToValue_eq_iff (z : Complex) :
    complexToValue z = .complex z ↔ ¬ z.im.abs ≤ 1e-9 := by
  unfold complexToValue
  split
  · rename_i real
    exact iff_of_false nofun (not_not_intro (of_decide_eq_true real))
  · rename_i imaginary
    exact iff_of_true rfl fun within => imaginary (decide_eq_true within)

mutual

/-- All complex numbers come back exactly if each of them does. -/
theorem mapNumbers_complexToValue_iff (number : Float → Value) :
    (v : Value) → (v.mapNumbers number complexToValue = v.mapNumbers number .complex ↔
      v.AllComplexes fun z => ¬ z.im.abs ≤ 1e-9)
  | .number _ | .boolean _ | .text _ => iff_of_true rfl fun _ occurs => by cases occurs
  | .complex z => by
      simpa [Value.mapNumbers, Value.AllComplexes, Value.complexes] using complexToValue_eq_iff z
  | .list elements => by
      rw [Value.mapNumbers, Value.mapNumbers, Value.list.injEq]
      exact mapAllNumbers_complexToValue_iff number elements

theorem mapAllNumbers_complexToValue_iff (number : Float → Value) : (values : List Value) →
    (Value.mapAllNumbers number complexToValue values =
        Value.mapAllNumbers number .complex values ↔
      ∀ z ∈ Value.complexesOf values, ¬ z.im.abs ≤ 1e-9)
  | [] => iff_of_true rfl fun _ occurs => by cases occurs
  | first :: rest => by
      rw [Value.mapAllNumbers, Value.mapAllNumbers, List.cons.injEq, Value.complexesOf,
        List.forall_mem_append, mapNumbers_complexToValue_iff number first,
        mapAllNumbers_complexToValue_iff number rest]
      rfl

end

/-- A value comes back from its data as it was, and from the data of a result as it was but for the
sign of zero, exactly if no complex number in it counts as real by the standard tolerance. -/
theorem conversion_restores_iff (v : Value) :
    ((ofValue v).toValue = .ok v ↔ v.AllComplexes fun z => ¬ z.im.abs ≤ 1e-9) ∧
      ((ofResult v).toValue = .ok v.unsigned ↔ v.AllComplexes fun z => ¬ z.im.abs ≤ 1e-9) := by
  constructor
  · rw [toValue_ofValue, Except.ok.injEq]
    nth_rewrite 2 [← v.mapNumbers_self]
    exact mapNumbers_complexToValue_iff _ v
  · rw [toValue_ofResult, Except.ok.injEq]
    exact mapNumbers_complexToValue_iff _ v

/-- Zero is the integer zero, and a truth value is none. -/
example : ofResult (.list [.number (-0), .number 2.5, .boolean true]) =
    .list [.integer 0, .float 2.5, .boolean true] := rfl

end Datum

end Reckoner
