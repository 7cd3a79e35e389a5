import Reckoner.Proofs.Integers
import Reckoner.Proofs.ReadBack
import Reckoner.Proofs.Spelling

set_option autoImplicit false

/-!
Printed numbers keep their value. Both written forms of a number lay out the same decimal, so they
denote the same rational number; an integer that is written out in full denotes itself. An exponent
is written exactly for numbers other than zero below `1e-6` or from `1e21` up, with its sign and
without leading zeros: the shortest decimal of a number is on the same side of one and of ten as the
number, so its exponent is not zero there.
-/

namespace Reckoner

namespace Decimal

variable (d : Decimal)

/-- The rational number that a decimal is. -/
def value : ℚ :=
  d.coefficient * 10 ^ d.exponent

/-- Zeros at the end of the coefficient make up for a smaller exponent. -/
theorem value_mul_pow (c k : Nat) (e : Int) : value ⟨c * 10 ^ k, e⟩ = value ⟨c, e + k⟩ := by
  simp only [value]
  rw [zpow_add₀ (by norm_num), zpow_natCast]
  push_cast
  ring

/-- The coefficient has as many digits as its exponent is below the leading one. -/
theorem value_bounds (positive : 0 < d.coefficient) :
    10 ^ d.leadingExponent ≤ d.value ∧ d.value < 10 ^ (d.leadingExponent + 1) := by
  have ten : (10 : ℚ) ≠ 0 := by norm_num
  have nonempty : 0 < d.digits.length := List.length_pos_of_ne_nil d.digits_ne_nil
  have step : (0 : ℚ) < 10 ^ d.exponent := by positivity
  have high : d.coefficient < 10 ^ d.digits.length :=
    (Nat.length_toDigits_le_iff (by decide) nonempty).mp le_rfl
  have low : 10 ^ (d.digits.length - 1) ≤ d.coefficient := by
    rcases Nat.eq_zero_or_pos (d.digits.length - 1) with one | more
    · rw [one]
      exact positive
    · by_contra less
      have short := (Nat.length_toDigits_le_iff (by decide) more).mpr (not_le.mp less)
      change d.digits.length ≤ _ at short
      omega
  have leading : d.leadingExponent = ((d.digits.length - 1 : Nat) : Int) + d.exponent := by
    rw [leadingExponent]
    omega
  have next : d.leadingExponent + 1 = (d.digits.length : Int) + d.exponent := by
    rw [leadingExponent]
    omega
  rw [next, leading, zpow_add₀ ten, zpow_add₀ ten, zpow_natCast, zpow_natCast, value]
  constructor
  · gcongr
    exact_mod_cast low
  · gcongr
    exact_mod_cast high

/-- The positional form is a numeral of the same number. -/
theorem exists_reads_positional :
    ∃ read, Numeral.Reads d.positional read ∧ read.value = d.value := by
  rcases lt_or_ge d.exponent 0 with negative | nonneg
  · exact ⟨d, d.reads_positional_of_neg negative, rfl⟩
  · refine ⟨_, d.reads_positional_of_nonneg nonneg, ?_⟩
    rw [value_mul_pow, Int.zero_add, Int.toNat_of_nonneg nonneg]

/-- An integer with a zero after the point is one, too. -/
theorem exists_reads_positional_append (nonneg : 0 ≤ d.exponent) :
    ∃ read, Numeral.Reads (d.positional ++ ['.', '0']) read ∧ read.value = d.value := by
  refine ⟨_, d.reads_positional_append nonneg 1, ?_⟩
  rw [value_mul_pow, value_mul_pow, Int.toNat_of_nonneg nonneg]
  norm_num

/-- The quotient that reading rounds is the number that the decimal is. -/
theorem value_eq_div :
    d.value =
      (d.coefficient * tenTo d.exponent.toNat : Nat) / (tenTo (-d.exponent).toNat : Nat) := by
  have power : (10 : ℚ) ^ d.exponent = 10 ^ d.exponent.toNat / 10 ^ (-d.exponent).toNat := by
    rw [← zpow_natCast, ← zpow_natCast, ← zpow_sub₀ (by norm_num), Int.toNat_sub_toNat_neg]
  simp only [value, tenTo, Nat.pow_eq, power]
  push_cast
  rw [mul_div_assoc]

/-- A decimal that reads as a finite double other than zero is rounded to it. -/
theorem isNearest_of_toFloat {x : Float} {b : Binary} (read : d.toFloat = x)
    (exact : Binary.ofFloat? x = some b) (positive : 0 < b.mantissa) :
    0 < d.coefficient ∧ Number.IsNearest d.value b := by
  have nonzero : x ≠ Float.ofBits 0 := by
    rintro rfl
    have fraction : Binary.ofFloat? (Float.ofBits 0) = some ⟨false, 0, -1074⟩ := rfl
    cases fraction.symm.trans exact
    exact absurd positive (Nat.lt_irrefl 0)
  have finite : x ≠ Number.infinity := by
    rintro rfl
    cases exact
  -- All but the last branch answer zero or infinity.
  unfold toFloat at read
  split at read
  · exact absurd read.symm nonzero
  rename_i coefficient
  split at read
  · exact absurd read.symm finite
  split at read
  · exact absurd read.symm nonzero
  have scale : 0 < tenTo (-d.exponent).toNat := Nat.pow_pos (by decide)
  obtain ⟨c, rounded, -, nearest⟩ := Number.nearest_isNearest
    (d.coefficient * tenTo d.exponent.toNat) scale (read ▸ Number.isInf_of_ofFloat? exact)
  rw [read, exact] at rounded
  cases rounded
  rw [value_eq_div]
  exact ⟨Nat.pos_of_ne_zero coefficient, nearest⟩

end Decimal

namespace Numeral

def signedValue (negative : Bool) (q : ℚ) : ℚ :=
  if negative then -q else q

/-- The rational number that a decimal numeral denotes, before it is rounded to a double. -/
def denotes (text : String) : Option ℚ := do
  let stripped := Text.strip (text.toList.map Text.foldDigit)
  let digits ← dropUnderscores Char.isDigit false stripped
  let (negative, magnitude) := splitSign digits
  (readDecimal magnitude).map fun d => signedValue negative d.value

theorem Reads.denotes_withSign {text : List Char} {d : Decimal} (reads : Reads text d)
    (negative : Bool) :
    denotes (Number.withSign negative text) = some (signedValue negative d.value) := by
  obtain ⟨plain, split⟩ := reads.split_withSign negative
  simp only [denotes, Number.withSign, String.toList_ofList, Text.map_foldDigit plain,
    Text.strip_of_plain plain, dropUnderscores_of_plain Char.isDigit plain, Option.bind_eq_bind,
    Option.bind_some, split, reads.decimal, Option.map_some]

/-- A text with one mark of an exponent, after it the sign of the exponent, and then its digits
without a zero before them. -/
def HasExponent (text : List Char) : Prop :=
  ∃ mantissa sign digits, text = mantissa ++ 'e' :: sign :: digits ∧ 'e' ∉ mantissa ∧
    (sign = '+' ∨ sign = '-') ∧ digits ≠ [] ∧ (∀ c ∈ digits, c.isDigit = true) ∧
    digits.head? ≠ some '0'

theorem mark_not_mem_of_isDigit {text : List Char} (digits : ∀ c ∈ text, c.isDigit = true) :
    'e' ∉ text :=
  fun found => absurd (digits 'e' found) (by decide)

/-- The digits of a positive number do not start with a zero. -/
theorem head?_toDigits_ne_zero {n : Nat} (positive : 0 < n) :
    (Nat.toDigits 10 n).head? ≠ some '0' := by
  induction n using Nat.strong_induction_on with
  | _ n ih =>
      rcases Nat.lt_or_ge n 10 with short | long
      · have table : ∀ n < 10, 0 < n → n.digitChar ≠ '0' := by decide
        rw [Nat.toDigits_of_lt_base short, List.head?_singleton]
        exact fun same => table n short positive (Option.some.inj same)
      · rw [Nat.toDigits_of_base_le (by decide) long,
          List.head?_append_of_ne_nil _ Nat.toDigits_ne_nil]
        exact ih (n / 10) (by omega) (by omega)

theorem HasExponent.withSign {text : List Char} (marked : HasExponent text) (negative : Bool) :
    HasExponent (Number.withSign negative text).toList := by
  rw [Number.withSign, String.toList_ofList]
  cases negative with
  | false => exact marked
  | true =>
      obtain ⟨mantissa, sign, digits, rfl, absent, rest⟩ := marked
      refine ⟨'-' :: mantissa, sign, digits, rfl, ?_, rest⟩
      rw [List.mem_cons]
      exact not_or.mpr ⟨by decide, absent⟩

theorem HasExponent.mark_mem {text : List Char} (marked : HasExponent text) : 'e' ∈ text := by
  obtain ⟨mantissa, sign, digits, rfl, -⟩ := marked
  simp

theorem mark_not_mem_withSign {text : List Char} (absent : 'e' ∉ text) (negative : Bool) :
    'e' ∉ (Number.withSign negative text).toList := by
  rw [Number.withSign, String.toList_ofList]
  cases negative with
  | false => exact absent
  | true =>
      rw [if_pos rfl, List.mem_cons]
      exact not_or.mpr ⟨by decide, absent⟩

end Numeral

namespace Decimal

variable (d : Decimal)

/-- The positional form has no exponent. -/
theorem mark_not_mem_positional : 'e' ∉ d.positional := by
  have digits : ∀ c ∈ List.replicate ((-d.exponent).toNat + 1 - d.digits.length) '0' ++ d.digits ++
      List.replicate d.exponent.toNat '0', c.isDigit = true := by
    intro c found
    rcases List.mem_append.mp found with filled | zero
    · exact isDigit_filled d.isDigit_digits c filled
    · rw [List.eq_of_mem_replicate zero]
      rfl
  have absent := Numeral.mark_not_mem_of_isDigit digits
  unfold positional
  dsimp only
  split
  · exact absent
  · rw [List.mem_append, List.mem_cons]
    rintro (whole | point | fraction)
    · exact absent (List.mem_of_mem_take whole)
    · exact absurd point (by decide)
    · exact absent (List.mem_of_mem_drop fraction)

/-- The digits of the exponent with zeros before them that fill them up. -/
def filledExponent (width : Nat) : List Char :=
  let digits := Nat.toDigits 10 d.leadingExponent.natAbs
  List.replicate (width - digits.length) '0' ++ digits

/-- The width of the scientific form shows only in its exponent. -/
theorem exists_scientific :
    ∃ mantissa sign, 'e' ∉ mantissa ∧ (sign = '+' ∨ sign = '-') ∧
      ∀ width, d.scientific width = mantissa ++ 'e' :: sign :: d.filledExponent width := by
  have digits := Numeral.mark_not_mem_of_isDigit d.isDigit_digits
  refine ⟨_, _, ?_, ?_, fun width => rfl⟩
  · generalize d.digits = text at digits
    split
    · simp only [List.mem_cons, not_or] at digits ⊢
      exact ⟨digits.1, by decide, digits.2⟩
    · exact digits
  · split
    · exact Or.inr rfl
    · exact Or.inl rfl

theorem filledExponent_one : d.filledExponent 1 = Nat.toDigits 10 d.leadingExponent.natAbs := by
  have some := List.length_pos_of_ne_nil
    (Nat.toDigits_ne_nil (b := 10) (n := d.leadingExponent.natAbs))
  have fill : 1 - (Nat.toDigits 10 d.leadingExponent.natAbs).length = 0 := by omega
  rw [filledExponent, fill, List.replicate_zero, List.nil_append]

/-- Unless the first digit is that of the ones, the scientific form of the least width has an
exponent without a zero before it. -/
theorem hasExponent_scientific (nonzero : d.leadingExponent ≠ 0) :
    Numeral.HasExponent (d.scientific 1) := by
  obtain ⟨mantissa, sign, absent, signed, form⟩ := d.exists_scientific
  rw [form, filledExponent_one]
  exact ⟨_, _, _, rfl, absent, signed, Nat.toDigits_ne_nil, Numeral.isDigit_toDigits,
    Numeral.head?_toDigits_ne_zero (Int.natAbs_pos.mpr nonzero)⟩

end Decimal

namespace Number

open Numeral (denotes signedValue HasExponent)

variable {x : Float} {b : Binary}

/-- The shortest decimal of a double is rounded to its magnitude. -/
theorem shortest_isNearest (exact : Binary.ofFloat? x = some b) (positive : 0 < b.mantissa) :
    0 < (shortest b).coefficient ∧
      IsNearest (shortest b).value { b with negative := false } := by
  have read : (shortest b).toFloat = x.abs :=
    (toFloat_shortest positive).trans (Binary.nearest_eq_abs exact)
  exact (shortest b).isNearest_of_toFloat read (Binary.ofFloat?_magnitude exact) positive

theorem ofFloat?_one : Binary.ofFloat? 1 = some ⟨false, 2 ^ 52, -52⟩ := rfl

theorem ofFloat?_ten : Binary.ofFloat? 10 = some ⟨false, 5 * 2 ^ 50, -49⟩ := rfl

/-- The bounds that decide on the layout. -/
theorem ofFloat?_lower : Binary.ofFloat? 1e-6 = some ⟨false, 4722366482869645, -72⟩ := rfl

theorem ofFloat?_upper : Binary.ofFloat? 1e21 = some ⟨false, 7629394531250000, 17⟩ := rfl

theorem abs_value_lt_one (exact : Binary.ofFloat? x = some b) (small : x.abs < 1e-6) :
    |b.value| < 1 := by
  have magnitude := Binary.ofFloat?_magnitude exact
  rw [lt_iff_value magnitude ofFloat?_lower, Binary.value_magnitude] at small
  refine small.trans ?_
  norm_num [Binary.value_eq]

theorem ten_lt_abs_value (exact : Binary.ofFloat? x = some b) (large : 1e21 ≤ x.abs) :
    10 < |b.value| := by
  have magnitude := Binary.ofFloat?_magnitude exact
  rw [le_iff_value ofFloat?_upper magnitude, Binary.value_magnitude] at large
  refine lt_of_lt_of_le ?_ large
  norm_num [Binary.value_eq]

/-- Outside the bounds the leading digit of the shortest decimal is not that of the ones: one and
ten are doubles, so a decimal between them is not rounded across them. -/
theorem leadingExponent_shortest_ne_zero (exact : Binary.ofFloat? x = some b)
    (positive : 0 < b.mantissa) (extreme : x.abs < 1e-6 ∨ 1e21 ≤ x.abs) :
    (shortest b).leadingExponent ≠ 0 := by
  obtain ⟨coefficient, nearest⟩ := shortest_isNearest exact positive
  intro zero
  obtain ⟨low, high⟩ := (shortest b).value_bounds coefficient
  rw [zero] at low high
  rcases extreme with small | large
  · have one : (⟨false, 2 ^ 52, -52⟩ : Binary).value = 1 := by norm_num [Binary.value_eq]
    have above := nearest.le_value ofFloat?_one (by rw [one]; simpa using low)
    rw [one, Binary.value_magnitude] at above
    exact absurd (abs_value_lt_one exact small) (not_lt.mpr above)
  · have ten : (⟨false, 5 * 2 ^ 50, -49⟩ : Binary).value = 10 := by norm_num [Binary.value_eq]
    have below := nearest.value_le ofFloat?_ten (by rw [ten]; simpa using high.le)
    rw [ten, Binary.value_magnitude] at below
    exact absurd (ten_lt_abs_value exact large) (not_lt.mpr below)

/-- The digits of an integer are those of its magnitude. -/
theorem value_wholePart (integer : b.isInteger = true) :
    Decimal.value ⟨b.numerator / b.denominator, 0⟩ = |b.value| := by
  rw [Binary.abs_value, Decimal.value, zpow_zero, mul_one, cast_wholePart integer]

theorem one_le_abs_value (integer : b.isInteger = true) (positive : 0 < b.mantissa) :
    1 ≤ |b.value| := by
  have nonzero : (0 : ℚ) < |b.value| := by
    rw [Binary.abs_value, Binary.numerator_div_denominator]
    positivity
  rw [← value_wholePart integer, Decimal.value, zpow_zero, mul_one] at nonzero ⊢
  exact_mod_cast nonzero

/-- How a finite number is printed, and which numbers are printed so. -/
inductive Layout (x : Float) (b : Binary) : Prop where
  | whole (integer : b.isInteger = true) (below : x.abs < 1e21) (negative : Bool)
      (form : displayText x = withSign negative (Nat.toDigits 10 (b.numerator / b.denominator)))
      (sign : signedValue negative |b.value| = b.value)
  | positional (positive : 0 < b.mantissa) (broken : ¬ (b.isInteger = true ∧ x.abs < 1e21))
      (between : 1e-6 ≤ x.abs ∧ x.abs < 1e21)
      (form : displayText x = withSign b.negative (shortest b).positional)
  | scientific (positive : 0 < b.mantissa) (broken : ¬ (b.isInteger = true ∧ x.abs < 1e21))
      (extreme : x.abs < 1e-6 ∨ 1e21 ≤ x.abs)
      (form : displayText x = withSign b.negative ((shortest b).scientific 1))

theorem layout (exact : Binary.ofFloat? x = some b) : Layout x b := by
  rcases Nat.eq_zero_or_pos b.mantissa with zero | positive
  -- Zero is an integer, too, but has lost its sign.
  · have same : (x == 0) = true := eq_zero_of_mantissa exact zero
    have none : b.numerator = 0 := by rw [Binary.numerator, zero, Nat.zero_shiftLeft]
    have value : b.value = 0 := by
      rw [← abs_eq_zero, Binary.abs_value, none, Nat.cast_zero, zero_div]
    refine .whole (isInteger_of_eq_zero exact same) ?_ false ?_ ?_
    · rw [abs_of_eq_zero same]
      decide +kernel
    · rw [displayText_zero exact zero, none, Nat.zero_div]
    · rw [value, abs_zero]
      rfl
  · have magnitude := Binary.ofFloat?_magnitude exact
    have form := displayText_eq exact positive
    simp only [Bool.and_eq_true, decide_eq_true_eq] at form
    split_ifs at form with whole between
    · exact .whole whole.1 whole.2 b.negative form b.value_eq_signed.symm
    · exact .positional positive whole between form
    · refine .scientific positive whole ?_ form
      rw [← not_lt_iff_le magnitude ofFloat?_upper]
      refine (em (x.abs < 1e-6)).imp_right fun large below => between ⟨?_, below⟩
      exact (not_lt_iff_le magnitude ofFloat?_lower).mp large

/-- The three forms in reports of a finite number other than zero. -/
theorem reportText_eq (exact : Binary.ofFloat? x = some b) (positive : 0 < b.mantissa) :
    reportText x = withSign b.negative
      (if (shortest b).leadingExponent < -4 || 16 ≤ (shortest b).leadingExponent then
        (shortest b).scientific 2
      else if (shortest b).exponent < 0 then (shortest b).positional
      else (shortest b).positional ++ ['.', '0']) := by
  simp only [reportText, exact]
  rw [if_neg positive.ne']

/-- The form in reports denotes the shortest decimal, with the sign of the number. -/
theorem denotes_reportText (exact : Binary.ofFloat? x = some b) (positive : 0 < b.mantissa) :
    denotes (reportText x) = some (signedValue b.negative (shortest b).value) := by
  rw [reportText_eq exact positive]
  split_ifs with exponent fraction
  · exact ((shortest b).reads_scientific 2).denotes_withSign b.negative
  · exact ((shortest b).reads_positional_of_neg fraction).denotes_withSign b.negative
  · obtain ⟨read, reads, same⟩ := (shortest b).exists_reads_positional_append (not_lt.mp fraction)
    rw [reads.denotes_withSign, same]

namespace Layout

theorem denotes_of_integer (laid : Layout x b) (integer : b.isInteger = true)
    (below : x.abs < 1e21) : denotes (displayText x) = some b.value := by
  cases laid with
  | whole _ _ negative form sign =>
      rw [form, (Numeral.reads_toDigits _).denotes_withSign, value_wholePart integer, sign]
  | positional _ broken => exact absurd ⟨integer, below⟩ broken
  | scientific _ broken => exact absurd ⟨integer, below⟩ broken

/-- A number that is not written out as an integer denotes what its form in reports does. -/
theorem denotes_of_broken (laid : Layout x b) (exact : Binary.ofFloat? x = some b)
    (broken : ¬ (b.isInteger = true ∧ x.abs < 1e21)) :
    ∃ q, denotes (displayText x) = some q ∧ denotes (reportText x) = some q := by
  cases laid with
  | whole integer below => exact absurd ⟨integer, below⟩ broken
  | positional positive _ _ form =>
      obtain ⟨read, reads, same⟩ := (shortest b).exists_reads_positional
      refine ⟨_, ?_, denotes_reportText exact positive⟩
      rw [form, reads.denotes_withSign, same]
  | scientific positive _ _ form =>
      refine ⟨_, ?_, denotes_reportText exact positive⟩
      rw [form, ((shortest b).reads_scientific 1).denotes_withSign]

/-- An exponent is written for numbers outside the bounds, zero apart, and for no others. -/
theorem hasExponent_or_not (laid : Layout x b) (exact : Binary.ofFloat? x = some b) :
    (HasExponent (displayText x).toList ∧
        ¬ (x == 0) = true ∧ (x.abs < 1e-6 ∨ 1e21 ≤ x.abs)) ∨
      ('e' ∉ (displayText x).toList ∧
        ¬ (¬ (x == 0) = true ∧ (x.abs < 1e-6 ∨ 1e21 ≤ x.abs))) := by
  have magnitude := Binary.ofFloat?_magnitude exact
  cases laid with
  | whole integer below negative form =>
      refine Or.inr ⟨?_, ?_⟩
      · rw [form]
        exact Numeral.mark_not_mem_withSign
          (Numeral.mark_not_mem_of_isDigit Numeral.isDigit_toDigits) negative
      · rintro ⟨nonzero, small | large⟩
        · have positive : 0 < b.mantissa :=
            Nat.pos_of_ne_zero fun zero => nonzero (eq_zero_of_mantissa exact zero)
          exact absurd (abs_value_lt_one exact small)
            (not_lt.mpr (one_le_abs_value integer positive))
        · exact (not_lt_iff_le magnitude ofFloat?_upper).mpr large below
  | positional positive _ between form =>
      refine Or.inr ⟨?_, ?_⟩
      · rw [form]
        exact Numeral.mark_not_mem_withSign (shortest b).mark_not_mem_positional b.negative
      · rintro ⟨-, small | large⟩
        · exact (not_lt_iff_le magnitude ofFloat?_lower).mpr between.1 small
        · exact (not_lt_iff_le magnitude ofFloat?_upper).mpr large between.2
  | scientific positive _ extreme form =>
      have nonzero : ¬ (x == 0) = true :=
        fun zero => positive.ne' (mantissa_eq_zero exact zero)
      refine Or.inl ⟨?_, nonzero, extreme⟩
      rw [form]
      exact ((shortest b).hasExponent_scientific
        (leadingExponent_shortest_ne_zero exact positive extreme)).withSign b.negative

end Layout

theorem unsignedZero_beq (exact : Binary.ofFloat? x = some b) : (unsignedZero x == x) = true := by
  unfold unsignedZero
  split
  · rename_i zero
    exact PartialEquivBEq.symm zero
  · refine Float.beq_self_iff.mpr ?_
    rintro rfl
    cases exact

/-- The printed form of a finite number is a literal of the number. -/
theorem number_displayText (exact : Binary.ofFloat? x = some b) :
    ∃ y, Literal.number (displayText x) = .ok y ∧ (y == x) = true := by
  obtain ⟨negative, text, d, form, reads, value⟩ := exists_signed_numeral exact
  refine ⟨unsignedZero x, ?_, unsignedZero_beq exact⟩
  rw [form, Literal.number_withSign reads, value]

/-- Printing keeps the number. An integer below `1e21` denotes itself, any other number what its
form in reports denotes, and the text is a literal of the number. An exponent is written exactly for
numbers other than zero that are below `1e-6` or from `1e21` up, with its sign and without zeros
before it. -/
theorem displayText_keeps_value (finite : x.isFinite = true) :
    ∃ b, Binary.ofFloat? x = some b ∧
      (b.isInteger = true → x.abs < 1e21 → denotes (displayText x) = some b.value) ∧
      (¬ (b.isInteger = true ∧ x.abs < 1e21) →
        ∃ q, denotes (displayText x) = some q ∧ denotes (reportText x) = some q) ∧
      (∃ y, Literal.number (displayText x) = .ok y ∧ (y == x) = true) ∧
      ('e' ∈ (displayText x).toList ↔ ¬ (x == 0) = true ∧ (x.abs < 1e-6 ∨ 1e21 ≤ x.abs)) ∧
      ('e' ∈ (displayText x).toList → HasExponent (displayText x).toList) := by
  obtain ⟨b, exact⟩ := exists_ofFloat? finite
  have laid := layout exact
  refine ⟨b, exact, laid.denotes_of_integer, laid.denotes_of_broken exact,
    number_displayText exact, ?_⟩
  rcases laid.hasExponent_or_not exact with ⟨marked, extreme⟩ | ⟨absent, usual⟩
  · exact ⟨iff_of_true marked.mark_mem extreme, fun _ => marked⟩
  · exact ⟨iff_of_false absent usual, fun found => absurd found absent⟩

theorem displayText_keeps_value_small :
    (1e-7 : Float).isFinite = true ∧ HasExponent (displayText 1e-7).toList ∧
      ∃ q, denotes (displayText 1e-7) = some q ∧ denotes (reportText 1e-7) = some q := by
  have finite : (1e-7 : Float).isFinite = true := by decide +kernel
  have fraction : (Binary.ofFloat? 1e-7).map Binary.isInteger = some false := by decide +kernel
  obtain ⟨b, exact, -, same, -, marked, shape⟩ := displayText_keeps_value finite
  rw [exact, Option.map_some, Option.some_inj] at fraction
  refine ⟨finite, shape (marked.mpr ⟨by decide +kernel, Or.inl (by decide +kernel)⟩), same ?_⟩
  rintro ⟨integer, -⟩
  exact Bool.false_ne_true (fraction.symm.trans integer)

example : displayText 1e-7 = "1e-7" ∧ reportText 1e-7 = "1e-07" ∧
    displayText 2.5e-6 = "0.0000025" ∧ displayText 1e21 = "1e+21" := by decide +kernel

end Number

end Reckoner
