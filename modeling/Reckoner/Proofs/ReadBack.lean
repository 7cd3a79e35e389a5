import Reckoner.Proofs.Digits

set_option autoImplicit false

namespace Reckoner

namespace Decimal

open Numeral (Reads IsExponent pointed)

variable (d : Decimal)

theorem isDigit_digits : ∀ c ∈ d.digits, c.isDigit = true :=
  Numeral.isDigit_toDigits

theorem digits_ne_nil : d.digits ≠ [] :=
  Nat.toDigits_ne_nil

theorem ofDigitChars_digits : Nat.ofDigitChars 10 d.digits 0 = d.coefficient :=
  Nat.ofDigitChars_ten_toDigits

theorem isDigit_filled {n : Nat} {digits : List Char} (all : ∀ c ∈ digits, c.isDigit = true) :
    ∀ c ∈ List.replicate n '0' ++ digits, c.isDigit = true := by
  intro c found
  rcases List.mem_append.mp found with zero | digit
  · rw [List.eq_of_mem_replicate zero]
    rfl
  · exact all c digit

theorem ofDigitChars_filled (n : Nat) (digits : List Char) :
    Nat.ofDigitChars 10 (List.replicate n '0' ++ digits) 0 = Nat.ofDigitChars 10 digits 0 := by
  rw [Nat.ofDigitChars_append, Nat.ofDigitChars_replicate_zero, Nat.mul_zero]

theorem readDigits_filled (n m : Nat) :
    Numeral.readDigits (List.replicate m '0' ++ Nat.toDigits 10 n) = some n := by
  have all : (List.replicate m '0' ++ Nat.toDigits 10 n).all Char.isDigit = true :=
    List.all_eq_true.mpr (isDigit_filled Numeral.isDigit_toDigits)
  have nonempty : (List.replicate m '0' ++ Nat.toDigits 10 n).isEmpty = false := by
    simp [Nat.toDigits_ne_nil]
  rw [Numeral.readDigits, all, nonempty, if_neg (by decide), ofDigitChars_filled,
    Nat.ofDigitChars_ten_toDigits]

/-- The exponent of the scientific form, however many zeros fill it up. -/
theorem isExponent_signed (e : Int) (fill : Nat) :
    IsExponent ('e' :: (if e < 0 then '-' else '+') ::
      (List.replicate fill '0' ++ Nat.toDigits 10 e.natAbs)) e where
  chars c found := by
    rcases List.mem_cons.mp found with rfl | later
    · rfl
    rcases List.mem_cons.mp later with rfl | digit
    · split <;> rfl
    · exact Numeral.isDecimalChar_of_isDigit (isDigit_filled Numeral.isDigit_toDigits c digit)
  stops c found := by
    cases found
    decide
  value := by
    have read := readDigits_filled e.natAbs fill
    by_cases negative : e < 0
    · have value : -(e.natAbs : Int) = e := by omega
      rw [if_pos negative]
      simp only [Numeral.readExponent, Numeral.splitSign, read]
      exact congrArg some value
    · have value : (e.natAbs : Int) = e := by omega
      rw [if_neg negative]
      simp only [Numeral.readExponent, Numeral.splitSign, read]
      exact congrArg some value

/-- The scientific form is a numeral of the fraction. -/
theorem reads_scientific (width : Nat) : Reads (d.scientific width) d := by
  have exponent := isExponent_signed d.leadingExponent
    (width - (Nat.toDigits 10 d.leadingExponent.natAbs).length)
  have all := d.isDigit_digits
  have value := d.ofDigitChars_digits
  have leading : d.leadingExponent = d.digits.length - 1 + d.exponent := rfl
  unfold scientific
  rcases form : d.digits with _ | ⟨first, fraction⟩
  · exact absurd form d.digits_ne_nil
  · rw [form] at all value leading
    have reads := Numeral.reads_pointed (List.cons_ne_nil first []) all exponent
    have places : d.leadingExponent - fraction.length = d.exponent := by
      rw [leading, List.length_cons]
      omega
    rw [List.singleton_append, value, places] at reads
    cases fraction with
    | nil => exact reads
    | cons second rest => exact reads

/-- So is the positional form if the fraction has places after the point. -/
theorem reads_positional_of_neg (negative : d.exponent < 0) : Reads d.positional d := by
  have none : d.exponent.toNat = 0 := by omega
  have exponent : (0 : Int) - (-d.exponent).toNat = d.exponent := by omega
  have positive : (-d.exponent).toNat ≠ 0 := by omega
  unfold positional
  dsimp only
  generalize (-d.exponent).toNat = places at exponent positive ⊢
  rw [if_neg positive, none, List.replicate_zero, List.append_nil]
  have digits := @isDigit_filled (places + 1 - d.digits.length) d.digits d.isDigit_digits
  have value := ofDigitChars_filled (places + 1 - d.digits.length) d.digits
  have long : places < (List.replicate (places + 1 - d.digits.length) '0' ++ d.digits).length := by
    rw [List.length_append, List.length_replicate]
    omega
  generalize List.replicate (places + 1 - d.digits.length) '0' ++ d.digits = padded
    at digits value long ⊢
  generalize point : padded.length - places = split
  have nonempty : padded.take split ≠ [] := by
    rw [ne_eq, List.take_eq_nil_iff]
    rintro (start | empty)
    · omega
    · simp [empty] at long
  have length : (padded.drop split).length = places := by
    rw [List.length_drop]
    omega
  have fraction : padded.drop split ≠ [] := by
    intro empty
    rw [empty] at length
    exact positive length.symm
  rw [← List.take_append_drop split padded] at digits value
  have reads := Numeral.reads_pointed nonempty digits Numeral.isExponent_nil
  rw [Numeral.pointed, if_neg fraction, List.append_nil, value, ofDigitChars_digits, length,
    exponent] at reads
  exact reads

/-- Without places after the point the positional form is the digits, filled up with zeros. -/
theorem positional_of_nonneg (nonneg : 0 ≤ d.exponent) :
    d.positional = d.digits ++ List.replicate d.exponent.toNat '0' := by
  have places : (-d.exponent).toNat = 0 := by omega
  have positive : 0 + 1 - d.digits.length = 0 := by
    have nonempty := List.length_pos_of_ne_nil d.digits_ne_nil
    omega
  unfold positional
  dsimp only
  rw [if_pos places, places, positive, List.replicate_zero, List.nil_append]

/-- It is the numeral of the integer, also with zeros after a point. -/
theorem reads_positional_append (nonneg : 0 ≤ d.exponent) (places : Nat) :
    Reads (pointed d.positional (List.replicate places '0') [])
      ⟨d.coefficient * 10 ^ d.exponent.toNat * 10 ^ places, -places⟩ := by
  have digits : ∀ c ∈ d.positional ++ List.replicate places '0', c.isDigit = true := by
    rw [d.positional_of_nonneg nonneg]
    intro c found
    simp only [List.mem_append, List.mem_replicate] at found
    rcases found with (digit | ⟨-, rfl⟩) | ⟨-, rfl⟩
    · exact d.isDigit_digits c digit
    · rfl
    · rfl
  have nonempty : d.positional ≠ [] := by simp [d.positional_of_nonneg nonneg, d.digits_ne_nil]
  have value : Nat.ofDigitChars 10 (d.positional ++ List.replicate places '0') 0 =
      d.coefficient * 10 ^ d.exponent.toNat * 10 ^ places := by
    rw [d.positional_of_nonneg nonneg, Nat.ofDigitChars_append, Nat.ofDigitChars_append,
      ofDigitChars_digits, Nat.ofDigitChars_replicate_zero, Nat.ofDigitChars_replicate_zero]
    ring
  have reads := Numeral.reads_pointed nonempty digits Numeral.isExponent_nil
  rw [value, List.length_replicate, Int.zero_sub] at reads
  exact reads

theorem reads_positional_of_nonneg (nonneg : 0 ≤ d.exponent) :
    Reads d.positional ⟨d.coefficient * 10 ^ d.exponent.toNat, 0⟩ := by
  simpa [pointed] using d.reads_positional_append nonneg 0

/-- The positional form of a finite fraction is a numeral of its double. -/
theorem reads_positional (finite : d.toFloat.isInf = false) :
    ∃ read, Reads d.positional read ∧ read.toFloat = d.toFloat := by
  rcases lt_or_ge d.exponent 0 with negative | nonneg
  · exact ⟨d, d.reads_positional_of_neg negative, rfl⟩
  · refine ⟨_, d.reads_positional_of_nonneg nonneg, ?_⟩
    rw [toFloat_integer]
    have places : (-d.exponent).toNat = 0 := by omega
    unfold toFloat at finite ⊢
    split
    · rename_i zero
      rw [zero, Nat.zero_mul, Number.nearest_zero]
    · rename_i positive
      rw [if_neg positive] at finite
      have small : ¬ 400 < d.exponent := by
        intro large
        rw [if_pos large] at finite
        exact absurd finite (by decide +kernel)
      rw [if_neg small, if_neg (by omega), places]
      rfl

end Decimal

namespace Number

/-- The exact decimal reads back. -/
theorem toFloat_exactDecimal {b : Binary} (positive : 0 < b.mantissa) :
    (exactDecimal b).toFloat = nearest b.numerator b.denominator := by
  have numerator := Binary.numerator_pos positive
  unfold exactDecimal Decimal.toFloat
  dsimp only
  generalize power : (-b.exponent).toNat = places
  have denominator : b.denominator = 2 ^ places := by
    rw [Binary.denominator, power, Nat.one_shiftLeft]
  have fives : 0 < b.numerator * Nat.pow 5 places := Nat.mul_pos numerator (Nat.pow_pos (by decide))
  have wide : ¬ -(places : Int) < -(400 + (b.numerator * Nat.pow 5 places).log2 : Int) := by
    have large : 2 ^ places ≤ b.numerator * Nat.pow 5 places :=
      (Nat.pow_le_pow_left (by decide) places).trans (Nat.le_mul_of_pos_left _ numerator)
    have bits := (Nat.le_log2 fives.ne').mpr large
    omega
  rw [if_neg fives.ne', if_neg (by omega), if_neg wide]
  have up : (-(places : Int)).toNat = 0 := by omega
  have down : (- -(places : Int)).toNat = places := by omega
  rw [up, down]
  apply nearest_congr (Nat.pow_pos (by decide)) b.denominator_pos
  rw [denominator]
  simp only [tenTo, Nat.pow_eq, Nat.pow_zero, Nat.mul_one]
  push_cast
  rw [show (10 : ℚ) = 2 * 5 by norm_num, mul_pow]
  field_simp

/-- The shortest decimal of a double reads back. -/
theorem toFloat_shortest {b : Binary} (positive : 0 < b.mantissa) :
    (shortest b).toFloat = nearest b.numerator b.denominator := by
  unfold shortest
  dsimp only
  generalize search : List.findSome? _ (List.range maxDigits) = found
  cases found with
  | none => exact toFloat_exactDecimal positive
  | some d =>
      obtain ⟨further, -, chosen⟩ := List.exists_of_findSome?_eq_some search
      have reads := List.find?_some chosen
      exact of_decide_eq_true reads

/-- A double that is not finite is NaN or one of the infinities. -/
theorem eq_of_ofFloat?_none {x : Float} (none : Binary.ofFloat? x = none) :
    x = nan ∨ x = infinity ∨ x = -infinity := by
  rw [Binary.ofFloat?_eq_ofUnpacked?] at none
  cases form : x.toModel.unpack with
  | notANumber =>
      refine Or.inl (eq_of_unpack_eq ?_)
      rw [form]
      rfl
  | infinity sign =>
      cases sign with
      | positive =>
          refine Or.inr (Or.inl (eq_of_unpack_eq ?_))
          rw [form]
          rfl
      | negative =>
          refine Or.inr (Or.inr (eq_of_unpack_eq ?_))
          rw [form]
          rfl
  | zero sign | finite sign mantissa exponent positive =>
      rw [form] at none
      cases none

theorem exists_ofFloat? {x : Float} (finite : x.isFinite = true) :
    ∃ b, Binary.ofFloat? x = some b := by
  rw [← Option.isSome_iff_exists, Option.isSome_iff_ne_none]
  intro none
  rcases eq_of_ofFloat?_none none with rfl | rfl | rfl <;> exact absurd finite (by decide +kernel)

theorem mantissa_eq_zero {x : Float} {b : Binary} (exact : Binary.ofFloat? x = some b)
    (zero : (x == 0) = true) : b.mantissa = 0 := by
  rcases eq_zero_or_neg_zero zero with rfl | rfl
  · cases Binary.ofFloat?_zero.symm.trans exact
    rfl
  · cases Binary.ofFloat?_neg_zero.symm.trans exact
    rfl

/-- Zero is an integer. -/
theorem isInteger_of_eq_zero {x : Float} {b : Binary} (exact : Binary.ofFloat? x = some b)
    (zero : (x == 0) = true) : b.isInteger = true := by
  simp [Binary.isInteger, Binary.numerator, mantissa_eq_zero exact zero]

theorem isInf_of_ofFloat? {x : Float} {b : Binary} (exact : Binary.ofFloat? x = some b) :
    x.isInf = false :=
  isInf_eq_false_of_isFinite (Binary.isFinite_of_ofFloat? exact)

/-- The division that takes the digits of an integer leaves nothing over. -/
theorem cast_wholePart {b : Binary} (whole : b.isInteger = true) :
    ((b.numerator / b.denominator : Nat) : ℚ) = b.numerator / b.denominator := by
  have divides : b.denominator ∣ b.numerator := Nat.dvd_of_mod_eq_zero (beq_iff_eq.mp whole)
  have scale : (b.denominator : ℚ) ≠ 0 := by exact_mod_cast b.denominator_pos.ne'
  exact Nat.cast_div divides scale

/-- The digits of an integer read back. -/
theorem toFloat_wholePart {b : Binary} (whole : b.isInteger = true) :
    Decimal.toFloat ⟨b.numerator / b.denominator, 0⟩ = nearest b.numerator b.denominator := by
  rw [Decimal.toFloat_integer]
  apply nearest_congr Nat.one_pos b.denominator_pos
  rw [cast_wholePart whole, Nat.cast_one, div_one]

theorem displayText_zero {x : Float} {b : Binary} (exact : Binary.ofFloat? x = some b)
    (zero : b.mantissa = 0) : displayText x = withSign false (Nat.toDigits 10 0) := by
  simp only [displayText, exact]
  rw [if_pos zero]
  rfl

/-- The three layouts of a finite number other than zero. -/
theorem displayText_eq {x : Float} {b : Binary} (exact : Binary.ofFloat? x = some b)
    (positive : 0 < b.mantissa) :
    displayText x =
      if b.isInteger && x.abs < 1e21 then
        withSign b.negative (Nat.toDigits 10 (b.numerator / b.denominator))
      else if 1e-6 ≤ x.abs && x.abs < 1e21 then withSign b.negative (shortest b).positional
      else withSign b.negative ((shortest b).scientific 1) := by
  simp only [displayText, exact]
  rw [if_neg positive.ne']

/-- A finite number other than zero is printed as a numeral of its magnitude, with its sign. -/
theorem exists_numeral {x : Float} {b : Binary} (exact : Binary.ofFloat? x = some b)
    (positive : 0 < b.mantissa) :
    ∃ text d, displayText x = withSign b.negative text ∧ Numeral.Reads text d ∧
      d.toFloat = nearest b.numerator b.denominator := by
  have value := toFloat_shortest positive
  have form := displayText_eq exact positive
  split at form
  · rename_i integer
    obtain ⟨whole, -⟩ := Bool.and_eq_true_iff.mp integer
    exact ⟨_, _, form, Numeral.reads_toDigits _, toFloat_wholePart whole⟩
  · split at form
    · have finite : (shortest b).toFloat.isInf = false := by
        rw [value, Binary.nearest_eq_abs exact]
        exact isInf_of_ofFloat? (Binary.ofFloat?_magnitude exact)
      obtain ⟨read, reads, same⟩ := (shortest b).reads_positional finite
      exact ⟨_, read, form, reads, same.trans value⟩
    · exact ⟨_, _, form, (shortest b).reads_scientific 1, value⟩

/-- The number that a printed form stands for: zero has lost its sign. -/
def unsignedZero (x : Float) : Float :=
  if x == 0 then 0 else x

/-- Every finite number is printed as a numeral with a sign. -/
theorem exists_signed_numeral {x : Float} {b : Binary} (exact : Binary.ofFloat? x = some b) :
    ∃ negative text d, displayText x = withSign negative text ∧ Numeral.Reads text d ∧
      signed negative d.toFloat = unsignedZero x := by
  rcases Nat.eq_zero_or_pos b.mantissa with zero | positive
  · refine ⟨false, _, _, displayText_zero exact zero, Numeral.reads_toDigits 0, ?_⟩
    rw [unsignedZero, if_pos (eq_zero_of_mantissa exact zero)]
    decide +kernel
  · have nonzero : ¬ (x == 0) = true := fun zero => positive.ne' (mantissa_eq_zero exact zero)
    obtain ⟨text, d, form, reads, value⟩ := exists_numeral exact positive
    refine ⟨b.negative, text, d, form, reads, ?_⟩
    rw [value, ← Binary.toFloat, Binary.toFloat_eq exact, unsignedZero, if_neg nonzero]

/-- The printed form is one of the words, or a numeral with a sign. -/
inductive Shows (x : Float) : Prop where
  | nan (value : x = nan) (text : displayText x = "NaN")
  | infinity (value : x = infinity) (text : displayText x = "Infinity")
  | negative (value : x = -infinity) (text : displayText x = "-Infinity")
  | numeral (negative : Bool) (text : List Char) (d : Decimal)
      (form : displayText x = withSign negative text) (reads : Numeral.Reads text d)
      (value : signed negative d.toFloat = unsignedZero x)

theorem shows (x : Float) : Shows x := by
  cases exact : Binary.ofFloat? x with
  | none =>
      rcases eq_of_ofFloat?_none exact with rfl | rfl | rfl
      · exact .nan rfl (by decide +kernel)
      · exact .infinity rfl (by decide +kernel)
      · exact .negative rfl (by decide +kernel)
  | some b =>
      obtain ⟨negative, text, d, form, reads, value⟩ := exists_signed_numeral exact
      exact .numeral negative text d form reads value

/-- The printed form of a number reads back as the number, up to the sign of zero. -/
theorem readFloat_displayText (x : Float) :
    Numeral.readFloat (displayText x) = some (unsignedZero x) := by
  cases shows x with
  | nan value text =>
      rw [text, value]
      decide +kernel
  | infinity value text =>
      rw [text, value]
      decide +kernel
  | negative value text =>
      rw [text, value]
      decide +kernel
  | numeral negative text d form reads value =>
      rw [form, reads.readFloat_withSign, value]

end Number
end Reckoner
