import Reckoner.Proofs.Factorial
import Reckoner.Proofs.Layout

set_option autoImplicit false

namespace Reckoner

namespace Numeral

/-- The numeral without an exponent, however far the point is from its digits. -/
def multiplyOut (text : List Char) : List Char :=
  let (negative, magnitude) := splitSign text
  let digits := (readDecimal magnitude).elim [] Decimal.positional
  if negative then '-' :: digits else digits

/-- The numeral with one sign before its exponent and no zeros after that. -/
def trimExponent (text : List Char) : List Char :=
  let mantissa := text.takeWhile (· != 'e')
  let exponent := (text.dropWhile (· != 'e')).tail
  let sign := if exponent.head? = some '-' then '-' else '+'
  let digits := (exponent.dropWhile fun c => c == '+' || c == '-').dropWhile (· == '0')
  mantissa ++ 'e' :: sign :: (if digits.isEmpty then ['0'] else digits)

theorem Reads.multiplyOut_withSign {text : List Char} {d : Decimal} (reads : Reads text d)
    (negative : Bool) :
    String.ofList (multiplyOut (Number.withSign negative text).toList) =
      Number.withSign negative d.positional := by
  obtain ⟨-, split⟩ := reads.split_withSign negative
  simp only [multiplyOut, Number.withSign, String.toList_ofList, split, reads.decimal,
    Option.elim_some]

theorem span_mark {mantissa : List Char} (absent : 'e' ∉ mantissa) (rest : List Char) :
    (mantissa ++ 'e' :: rest).takeWhile (· != 'e') = mantissa ∧
      (mantissa ++ 'e' :: rest).dropWhile (· != 'e') = 'e' :: rest := by
  apply Text.span_append
  · intro c found
    rw [bne_iff_ne]
    rintro rfl
    exact absent found
  · intro c found
    cases found
    rfl

theorem dropWhile_sign {sign : Char} (signed : sign = '+' ∨ sign = '-') {digits : List Char}
    (all : ∀ c ∈ digits, c.isDigit = true) :
    ((sign :: digits).dropWhile fun c => c == '+' || c == '-') = digits := by
  have isSign : ∀ c ∈ [sign], (c == '+' || c == '-') = true := by
    rcases signed with rfl | rfl <;> simp
  refine (Text.span_append isSign fun c found => ?_).2
  have digit := all c (List.mem_of_mem_head? found)
  rw [Bool.or_eq_false_iff, beq_eq_false_iff_ne, beq_eq_false_iff_ne]
  constructor <;> rintro rfl <;> cases digit

theorem dropWhile_filled (fill : Nat) {digits : List Char} (leading : digits.head? ≠ some '0') :
    (List.replicate fill '0' ++ digits).dropWhile (· == '0') = digits := by
  refine (Text.span_append (fun c found => ?_) fun c found => ?_).2
  · rw [List.eq_of_mem_replicate found]
    rfl
  · rw [beq_eq_false_iff_ne]
    rintro rfl
    exact leading found

/-- Only the zeros that fill up the exponent go. -/
theorem trimExponent_filled {mantissa digits : List Char} {sign : Char} (fill : Nat)
    (absent : 'e' ∉ mantissa) (signed : sign = '+' ∨ sign = '-') (nonempty : digits ≠ [])
    (all : ∀ c ∈ digits, c.isDigit = true) (leading : digits.head? ≠ some '0') :
    trimExponent (mantissa ++ 'e' :: sign :: (List.replicate fill '0' ++ digits)) =
      mantissa ++ 'e' :: sign :: digits := by
  obtain ⟨before, after⟩ := span_mark absent (sign :: (List.replicate fill '0' ++ digits))
  have unsigned := dropWhile_sign signed (Decimal.isDigit_filled (n := fill) all)
  have kept : (if sign = '-' then '-' else '+') = sign := by
    rcases signed with rfl | rfl <;> rfl
  simp [trimExponent, before, after, unsigned, dropWhile_filled fill leading, kept, nonempty]

end Numeral

namespace Decimal

variable (d : Decimal)

theorem mark_mem_scientific (width : Nat) (negative : Bool) :
    'e' ∈ (Number.withSign negative (d.scientific width)).toList := by
  obtain ⟨mantissa, sign, -, -, form⟩ := d.exists_scientific
  rw [form, Number.withSign, String.toList_ofList]
  cases negative <;> simp

/-- Whatever its width, the scientific form is cut down to that of the least width. -/
theorem trimExponent_withSign_scientific (nonzero : d.leadingExponent ≠ 0) (width : Nat)
    (negative : Bool) :
    String.ofList (Numeral.trimExponent (Number.withSign negative (d.scientific width)).toList) =
      Number.withSign negative (d.scientific 1) := by
  obtain ⟨mantissa, sign, absent, signed, form⟩ := d.exists_scientific
  have trimmed {start : List Char} (absent : 'e' ∉ start) :
      Numeral.trimExponent (start ++ 'e' :: sign :: d.filledExponent width) =
        start ++ 'e' :: sign :: d.filledExponent 1 := by
    rw [filledExponent_one]
    exact Numeral.trimExponent_filled _ absent signed Nat.toDigits_ne_nil Numeral.isDigit_toDigits
      (Numeral.head?_toDigits_ne_zero (Int.natAbs_pos.mpr nonzero))
  rw [form, form, Number.withSign, Number.withSign, String.toList_ofList]
  cases negative with
  | false => exact congrArg String.ofList (trimmed absent)
  | true =>
      have kept : 'e' ∉ '-' :: mantissa := by
        rw [List.mem_cons]
        exact not_or.mpr ⟨by decide, absent⟩
      exact congrArg String.ofList (trimmed kept)

end Decimal

namespace Binary

/-- The integer that is left when the places after the point are cut off. -/
def truncated (b : Binary) : Int :=
  b.signedNumerator.tdiv b.denominator

theorem toString_truncated {b : Binary} (integer : b.isInteger = true) (positive : 0 < b.mantissa) :
    toString b.truncated =
      Number.withSign b.negative (Nat.toDigits 10 (b.numerator / b.denominator)) := by
  have whole : 0 < b.numerator / b.denominator := by
    have large := Number.one_le_abs_value integer positive
    rw [← Number.value_wholePart integer, Decimal.value, zpow_zero, mul_one] at large
    exact_mod_cast large
  unfold truncated signedNumerator
  cases b.negative with
  | false => rfl
  | true =>
      rw [if_pos rfl, Int.neg_tdiv, ← Int.ofNat_tdiv]
      obtain ⟨n, same⟩ := Nat.exists_eq_succ_of_ne_zero whole.ne'
      rw [same]
      change String.ofList ['-'] ++ String.ofList (Nat.toDigits 10 (n + 1)) = _
      rw [← String.ofList_append]
      rfl

theorem isInteger_of_value {b : Binary} {k : Nat} (value : b.value = k) : b.isInteger = true := by
  have scale : (b.denominator : ℚ) ≠ 0 := by exact_mod_cast b.denominator_pos.ne'
  have magnitude : (b.numerator : ℚ) / b.denominator = k := by
    rw [← abs_value, value, abs_of_nonneg k.cast_nonneg]
  rw [div_eq_iff scale] at magnitude
  have product : b.numerator = k * b.denominator := by exact_mod_cast magnitude
  rw [isInteger, product, Nat.mul_mod_left]
  rfl

end Binary

namespace Number

variable {x : Float} {b : Binary}

/-- The form of printed values as changes to the form in reports. -/
def reshaped (x : Float) : String :=
  match Binary.ofFloat? x with
  | none => if x.isNaN then "NaN" else if 0 < x then "Infinity" else "-Infinity"
  | some b =>
    if x == 0 then
      "0"
    else if b.isInteger && x.abs < 1e21 then
      toString b.truncated
    else if 'e' ∉ (reportText x).toList then
      reportText x
    else if 1e-6 ≤ x.abs && x.abs < 1e21 then
      String.ofList (Numeral.multiplyOut (reportText x).toList)
    else
      String.ofList (Numeral.trimExponent (reportText x).toList)

/-- How a number other than zero is written in reports, and which numbers are written so. -/
inductive Reported (x : Float) (b : Binary) : Prop where
  | scientific (far : (shortest b).leadingExponent < -4 ∨ 16 ≤ (shortest b).leadingExponent)
      (form : reportText x = withSign b.negative ((shortest b).scientific 2))
  | positional (near : -4 ≤ (shortest b).leadingExponent ∧ (shortest b).leadingExponent < 16)
      (fraction : (shortest b).exponent < 0)
      (form : reportText x = withSign b.negative (shortest b).positional)
  | whole (near : -4 ≤ (shortest b).leadingExponent ∧ (shortest b).leadingExponent < 16)
      (integer : 0 ≤ (shortest b).exponent)

theorem reported (exact : Binary.ofFloat? x = some b) (positive : 0 < b.mantissa) :
    Reported x b := by
  have form := reportText_eq exact positive
  simp only [Bool.or_eq_true, decide_eq_true_eq] at form
  split_ifs at form with far fraction
  · exact .scientific far form
  · exact .positional (by omega) fraction form
  · exact .whole (by omega) (not_lt.mp fraction)

theorem ofFloat?_tenToSixteen : Binary.ofFloat? 1e16 = some ⟨false, 5000000000000000, 1⟩ := rfl

/-- A number whose leading digit is that close to the point is within the bounds. -/
theorem between_of_near (exact : Binary.ofFloat? x = some b) (positive : 0 < b.mantissa)
    (near : -4 ≤ (shortest b).leadingExponent ∧ (shortest b).leadingExponent < 16) :
    1e-6 ≤ x.abs ∧ x.abs < 1e21 := by
  have magnitude := Binary.ofFloat?_magnitude exact
  obtain ⟨coefficient, nearest⟩ := shortest_isNearest exact positive
  obtain ⟨low, high⟩ := (shortest b).value_bounds coefficient
  constructor
  · rw [le_iff_value ofFloat?_lower magnitude]
    refine nearest.le_value ofFloat?_lower (LE.le.trans ?_ low)
    calc (⟨false, 4722366482869645, -72⟩ : Binary).value ≤ 10 ^ (-4 : Int) := by
          norm_num [Binary.value_eq]
      _ ≤ 10 ^ (shortest b).leadingExponent := zpow_le_zpow_right₀ (by norm_num) near.1
  · have bound : (⟨false, 5000000000000000, 1⟩ : Binary).value = 10 ^ (16 : Int) := by
      norm_num [Binary.value_eq]
    have below := nearest.value_le ofFloat?_tenToSixteen (high.le.trans ?_)
    · rw [lt_iff_value magnitude ofFloat?_upper]
      refine below.trans_lt ?_
      norm_num [Binary.value_eq]
    · rw [bound]
      exact zpow_le_zpow_right₀ (by norm_num) (by omega)

/-- A decimal without places after the point is rounded to an integer. -/
theorem isInteger_of_whole (exact : Binary.ofFloat? x = some b) (positive : 0 < b.mantissa)
    (whole : 0 ≤ (shortest b).exponent) : b.isInteger = true := by
  have magnitude := Binary.ofFloat?_magnitude exact
  obtain ⟨-, nearest⟩ := shortest_isNearest exact positive
  obtain ⟨n, value⟩ : ∃ n : Nat, (shortest b).value = n := by
    refine ⟨(shortest b).coefficient * 10 ^ (shortest b).exponent.toNat, ?_⟩
    rw [Decimal.value, ← Int.toNat_of_nonneg whole, zpow_natCast, Int.toNat_natCast]
    push_cast
    rfl
  rw [value] at nearest
  change Binary.isInteger { b with negative := false } = true
  rcases lt_or_ge n (2 * Binary.hiddenBit) with short | long
  · obtain ⟨y, c, exactY, same⟩ := isExact_of_natAbs_lt (n := n) short
    have closest := nearest.closest y c exactY
    rw [same, Int.cast_natCast, sub_eq_zero_of_eq rfl, abs_zero, abs_nonpos_iff] at closest
    exact Binary.isInteger_of_value (eq_of_sub_eq_zero closest).symm
  · rw [← div_one (n : ℚ), ← Nat.cast_one] at nearest
    obtain ⟨k, integer, -⟩ := nearest.exists_integer magnitude long
    exact Binary.isInteger_of_value integer

/-- The printed form is what the changes to the form in reports give, for every double. -/
theorem displayText_eq_reshaped (x : Float) : displayText x = reshaped x := by
  cases exact : Binary.ofFloat? x with
  | none => simp only [displayText, reshaped, exact]
  | some b =>
      rcases Nat.eq_zero_or_pos b.mantissa with zero | positive
      · simp only [displayText, reshaped, exact]
        rw [if_pos zero, if_pos (eq_zero_of_mantissa exact zero)]
      have nonzero : ¬ (x == 0) = true := fun zero => positive.ne' (mantissa_eq_zero exact zero)
      rw [displayText_eq exact positive]
      simp only [reshaped, exact]
      rw [if_neg nonzero]
      by_cases whole : (b.isInteger && x.abs < 1e21) = true
      · rw [if_pos whole, if_pos whole]
        exact (Binary.toString_truncated (Bool.and_eq_true_iff.mp whole).1 positive).symm
      rw [if_neg whole, if_neg whole]
      cases reported exact positive with
      | scientific far form =>
          have marked := (shortest b).mark_mem_scientific 2 b.negative
          rw [form, if_neg (not_not.mpr marked),
            ((shortest b).reads_scientific 2).multiplyOut_withSign,
            (shortest b).trimExponent_withSign_scientific (by omega)]
      | positional near fraction form =>
          obtain ⟨low, high⟩ := between_of_near exact positive near
          have absent := Numeral.mark_not_mem_withSign
            (shortest b).mark_not_mem_positional b.negative
          rw [form, if_pos absent, if_pos (by simp [low, high])]
      | whole near integer =>
          have integral := isInteger_of_whole exact positive integer
          have below := (between_of_near exact positive near).2
          exact absurd (by simp [integral, below]) whole

example : reshaped 1e-7 = "1e-7" ∧ reshaped 2.5e-6 = "0.0000025" ∧ reshaped 1e20 =
    "100000000000000000000" := by decide +kernel

end Number

end Reckoner
