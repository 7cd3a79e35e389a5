import Reckoner.Number.Numeral
import Reckoner.Number.Written
import Reckoner.Proofs.Rounding

set_option autoImplicit false

namespace Reckoner

namespace Text

/-- The visible ASCII characters other than the underscore. -/
def isPlain (c : Char) : Bool :=
  0x21 ≤ c.toNat && c.toNat ≤ 0x7e && c != '_'

theorem isPlain_iff {c : Char} :
    isPlain c = true ↔ (0x21 ≤ c.toNat ∧ c.toNat ≤ 0x7e) ∧ c ≠ '_' := by
  simp [isPlain]

theorem foldDigit_of_plain {c : Char} (plain : isPlain c = true) : foldDigit c = c := by
  have table : ∀ n < 128, foldDigit (Char.ofNat n) = Char.ofNat n := by decide +kernel
  have kept := table c.toNat (by have bounds := isPlain_iff.mp plain; omega)
  rwa [Char.ofNat_toNat] at kept

theorem isBlank_of_plain {c : Char} (plain : isPlain c = true) : isBlank c = false := by
  obtain ⟨⟨low, high⟩, -⟩ := isPlain_iff.mp plain
  simp [isBlank]
  omega

theorem isPlain_of_isDigit {c : Char} (digit : c.isDigit = true) : isPlain c = true := by
  rw [Char.isDigit_iff_toNat] at digit
  have zero : '0'.toNat = 48 := rfl
  have nine : '9'.toNat = 57 := rfl
  refine isPlain_iff.mpr ⟨by omega, ?_⟩
  rintro rfl
  exact absurd digit (by decide)

theorem isPlain_of_isAlpha {c : Char} (letter : c.isAlpha = true) : isPlain c = true := by
  have bounds : 0x41 ≤ c.toNat ∧ c.toNat ≤ 0x7a := by
    simp only [Char.isAlpha, Char.isUpper, Char.isLower, Bool.or_eq_true, Bool.and_eq_true,
      decide_eq_true_eq, ge_iff_le, UInt32.le_iff_toNat_le, Char.toNat_val] at letter
    simp at letter
    omega
  refine isPlain_iff.mpr ⟨by omega, ?_⟩
  rintro rfl
  exact absurd letter (by decide)

theorem map_foldDigit {text : List Char} (plain : ∀ c ∈ text, isPlain c = true) :
    text.map foldDigit = text := by
  have same : ∀ c ∈ text, foldDigit c = c := fun c found => foldDigit_of_plain (plain c found)
  rw [List.map_congr_left same, List.map_id']

theorem strip_of_plain {text : List Char} (plain : ∀ c ∈ text, isPlain c = true) :
    strip text = text := by
  have kept {chars : List Char} (visible : ∀ c ∈ chars, isPlain c = true) :
      chars.dropWhile isBlank = chars := by
    cases chars with
    | nil => rfl
    | cons c rest =>
        have shown := isBlank_of_plain (visible c List.mem_cons_self)
        rw [List.dropWhile_cons, shown, if_neg Bool.false_ne_true]
  have reversed : ∀ c ∈ text.reverse, isPlain c = true :=
    fun c found => plain c (List.mem_reverse.mp found)
  rw [strip, kept plain, kept reversed, List.reverse_reverse]

/-- What is taken from the start of a text ends at the first character that does not belong. -/
theorem span_append {belongs : Char → Bool} {taken rest : List Char}
    (all : ∀ c ∈ taken, belongs c = true) (stops : ∀ c ∈ rest.head?, belongs c = false) :
    (taken ++ rest).takeWhile belongs = taken ∧ (taken ++ rest).dropWhile belongs = rest := by
  rw [List.takeWhile_append_of_pos all, List.dropWhile_append_of_pos all]
  cases rest with
  | nil => simp
  | cons c more =>
      have stop := stops c rfl
      simp [stop]

end Text

namespace Numeral

theorem dropUnderscores_of_plain (isDigit : Char → Bool) {text : List Char}
    (plain : ∀ c ∈ text, Text.isPlain c = true) (afterDigit : Bool) :
    dropUnderscores isDigit afterDigit text = some text := by
  induction text generalizing afterDigit with
  | nil => rfl
  | cons c rest ih =>
      obtain ⟨-, notUnderscore⟩ := Text.isPlain_iff.mp (plain c List.mem_cons_self)
      have tail := ih (fun d found => plain d (List.mem_cons_of_mem c found)) (isDigit c)
      rw [dropUnderscores, if_neg notUnderscore, tail, Option.map_some]

/-- A plain text is a sign and a magnitude. -/
theorem readFloat_of_plain {text : List Char} (plain : ∀ c ∈ text, Text.isPlain c = true) :
    readFloat (String.ofList text) =
      (readMagnitude (splitSign text).2).map (Number.signed (splitSign text).1) := by
  simp only [readFloat, String.toList_ofList, Text.map_foldDigit plain, Text.strip_of_plain plain,
    dropUnderscores_of_plain Char.isDigit plain, Option.bind_eq_bind, Option.bind_some]

theorem splitSign_of_digitValue? {c : Char} {d : Nat} (value : digitValue? c = some d)
    (rest : List Char) : splitSign (c :: rest) = (false, c :: rest) := by
  unfold splitSign
  split
  · rename_i same
    cases same
    cases value
  · rename_i same
    cases same
    cases value
  · rfl

theorem digitValue?_of_isDigit {c : Char} (digit : c.isDigit = true) :
    digitValue? c = some (c.toNat - '0'.toNat) :=
  if_pos digit

theorem toLower_of_isDigit {c : Char} (digit : c.isDigit = true) : c.toLower = c := by
  apply Char.toLower_eq_of_not_isUpper
  rw [Char.isDigit_iff_toNat] at digit
  simp [Char.isUpper, UInt32.le_iff_toNat_le] at digit ⊢
  omega

/-- What starts with a digit is no word. -/
theorem readMagnitude_of_isDigit {c : Char} (digit : c.isDigit = true) (rest : List Char) :
    readMagnitude (c :: rest) = (readDecimal (c :: rest)).map Decimal.toFloat := by
  have notI : c ≠ 'i' := by
    rintro rfl
    cases digit
  have notN : c ≠ 'n' := by
    rintro rfl
    cases digit
  simp [readMagnitude, toLower_of_isDigit digit, notI, notN]

/-- Digits without a point. -/
theorem readDecimal_whole {whole : List Char} (rest : List Char)
    (digits : ∀ c ∈ whole, c.isDigit = true) (nonempty : whole ≠ [])
    (stops : ∀ c ∈ rest.head?, c.isDigit = false ∧ c ≠ '.') :
    readDecimal (whole ++ rest) =
      (readExponent rest).map fun exponent => ⟨Nat.ofDigitChars 10 whole 0, exponent⟩ := by
  obtain ⟨taken, left⟩ := Text.span_append digits fun c found => (stops c found).1
  simp only [readDecimal, taken, left]
  split
  · exact absurd rfl (stops '.' rfl).2
  · simp [nonempty]

/-- Digits on both sides of a point. -/
theorem readDecimal_fraction {whole fraction rest : List Char}
    (wholeDigits : ∀ c ∈ whole, c.isDigit = true) (nonempty : whole ≠ [])
    (digits : ∀ c ∈ fraction, c.isDigit = true) (stops : ∀ c ∈ rest.head?, c.isDigit = false) :
    readDecimal (whole ++ '.' :: (fraction ++ rest)) = (readExponent rest).map fun exponent =>
      ⟨Nat.ofDigitChars 10 (whole ++ fraction) 0, exponent - fraction.length⟩ := by
  have point : ∀ c ∈ ('.' :: (fraction ++ rest)).head?, c.isDigit = false := by
    intro c found
    cases found
    rfl
  obtain ⟨taken, left⟩ := Text.span_append wholeDigits point
  obtain ⟨takenFraction, leftFraction⟩ := Text.span_append digits stops
  simp [readDecimal, taken, left, takenFraction, leftFraction, nonempty]

/-- The characters of decimal numerals that are no words. -/
def isDecimalChar (c : Char) : Bool :=
  c.isDigit || ['.', 'e', '+', '-'].contains c

theorem isDecimalChar_of_isDigit {c : Char} (digit : c.isDigit = true) :
    isDecimalChar c = true := by
  rw [isDecimalChar, digit, Bool.true_or]

theorem isPlain_of_isDecimalChar {c : Char} (decimal : isDecimalChar c = true) :
    Text.isPlain c = true := by
  rcases Bool.or_eq_true_iff.mp decimal with digit | other
  · exact Text.isPlain_of_isDigit digit
  · simp only [List.contains_iff_mem, List.mem_cons, List.not_mem_nil, or_false] at other
    rcases other with rfl | rfl | rfl | rfl <;> rfl

/-- A text of such characters that starts with a digit and is the numeral of a fraction. -/
structure Reads (text : List Char) (d : Decimal) : Prop where
  chars : ∀ c ∈ text, isDecimalChar c = true
  starts : ∀ c ∈ text.head?, c.isDigit = true
  nonempty : text ≠ []
  decimal : readDecimal text = some d

/-- With a sign before it, such a text is plain and splits into the sign and the text. -/
theorem Reads.split_withSign {text : List Char} {d : Decimal} (reads : Reads text d)
    (negative : Bool) :
    (∀ c ∈ if negative then '-' :: text else text, Text.isPlain c = true) ∧
      splitSign (if negative then '-' :: text else text) = (negative, text) := by
  obtain ⟨chars, starts, nonempty, -⟩ := reads
  have plain : ∀ c ∈ text, Text.isPlain c = true :=
    fun c found => isPlain_of_isDecimalChar (chars c found)
  cases text with
  | nil => exact absurd rfl nonempty
  | cons c rest =>
      have digit : c.isDigit = true := starts c rfl
      cases negative with
      | false => exact ⟨plain, splitSign_of_digitValue? (digitValue?_of_isDigit digit) rest⟩
      | true =>
          refine ⟨fun x found => ?_, rfl⟩
          rcases List.mem_cons.mp found with rfl | later
          · rfl
          · exact plain x later

theorem Reads.readMagnitude_eq {text : List Char} {d : Decimal} (reads : Reads text d) :
    readMagnitude text = some d.toFloat := by
  obtain ⟨-, starts, nonempty, decimal⟩ := reads
  cases text with
  | nil => exact absurd rfl nonempty
  | cons c rest => rw [readMagnitude_of_isDigit (starts c rfl), decimal, Option.map_some]

/-- With a sign before it, such a text is the numeral of a double. -/
theorem Reads.readFloat_withSign {text : List Char} {d : Decimal} (reads : Reads text d)
    (negative : Bool) :
    readFloat (Number.withSign negative text) = some (Number.signed negative d.toFloat) := by
  obtain ⟨plain, split⟩ := reads.split_withSign negative
  rw [Number.withSign, readFloat_of_plain plain, split, reads.readMagnitude_eq, Option.map_some]

/-- A text that may stand after the digits of a numeral, and the exponent that it adds. -/
structure IsExponent (rest : List Char) (e : Int) : Prop where
  chars : ∀ c ∈ rest, isDecimalChar c = true
  stops : ∀ c ∈ rest.head?, c.isDigit = false ∧ c ≠ '.'
  value : readExponent rest = some e

theorem isExponent_nil : IsExponent [] 0 :=
  ⟨by simp, by simp, rfl⟩

/-- Digits with a point before the `fraction`, if there is one, and a text after them. -/
def pointed (whole fraction rest : List Char) : List Char :=
  if fraction = [] then whole ++ rest else whole ++ '.' :: (fraction ++ rest)

/-- A numeral is the fraction of all its digits, scaled by its exponent and by the number of digits
after the point. -/
theorem reads_pointed {whole fraction rest : List Char} {e : Int} (nonempty : whole ≠ [])
    (digits : ∀ c ∈ whole ++ fraction, c.isDigit = true) (exponent : IsExponent rest e) :
    Reads (pointed whole fraction rest)
      ⟨Nat.ofDigitChars 10 (whole ++ fraction) 0, e - fraction.length⟩ := by
  have wholeDigits : ∀ c ∈ whole, c.isDigit = true :=
    fun c found => digits c (List.mem_append_left fraction found)
  have fractionDigits : ∀ c ∈ fraction, c.isDigit = true :=
    fun c found => digits c (List.mem_append_right whole found)
  have inside : ∀ c ∈ pointed whole fraction rest, c ∈ whole ++ fraction ∨ c = '.' ∨ c ∈ rest := by
    intro c found
    unfold pointed at found
    split at found <;> simp at found ⊢ <;> tauto
  have first : (pointed whole fraction rest).head? = whole.head? := by
    unfold pointed
    split <;> rw [List.head?_append_of_ne_nil whole nonempty]
  constructor
  · intro c found
    rcases inside c found with digit | rfl | later
    · exact isDecimalChar_of_isDigit (digits c digit)
    · rfl
    · exact exponent.chars c later
  · intro c found
    rw [first] at found
    exact wholeDigits c (List.mem_of_mem_head? found)
  · intro empty
    rw [empty] at first
    exact nonempty (List.head?_eq_none_iff.mp first.symm)
  · unfold pointed
    split
    · rename_i none
      rw [readDecimal_whole rest wholeDigits nonempty exponent.stops, exponent.value, none]
      simp
    · rw [readDecimal_fraction wholeDigits nonempty fractionDigits
        fun c found => (exponent.stops c found).1, exponent.value]
      rfl

theorem isDigit_toDigits {n : Nat} : ∀ c ∈ Nat.toDigits 10 n, c.isDigit = true :=
  fun _ found => Nat.isDigit_of_mem_toDigits (by decide) (by decide) found

/-- The digits of a number and nothing else are that number. -/
theorem reads_toDigits (n : Nat) : Reads (Nat.toDigits 10 n) ⟨n, 0⟩ := by
  have digits : ∀ c ∈ Nat.toDigits 10 n ++ [], c.isDigit = true := by
    rw [List.append_nil]
    exact isDigit_toDigits
  have reads := reads_pointed Nat.toDigits_ne_nil digits isExponent_nil
  rw [pointed, if_pos rfl, List.append_nil, Nat.ofDigitChars_ten_toDigits] at reads
  exact reads

end Numeral

theorem Decimal.toFloat_integer (n : Nat) : toFloat ⟨n, 0⟩ = Number.nearest n 1 := by
  unfold toFloat
  split
  · rename_i zero
    rw [show n = 0 from zero, Number.nearest_zero]
  · have small : ¬ (0 : Int) < -(400 + n.log2 : Int) := by omega
    rw [if_neg (show ¬ (400 : Int) < 0 by decide), if_neg small]
    simp [tenTo]

end Reckoner
